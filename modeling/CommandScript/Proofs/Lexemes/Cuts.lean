import CommandScript.Proofs.Text.Spans

/-! Cuts through quoted spans. A place of a text lies in a quoted span, or between its spans. Behind a text with closed
spans nothing is cut; and where a place cuts no span, either the text before it closes its spans, or a quote stands
before it that is never closed, and then no place behind it cuts a span. -/

namespace CommandScript

/-- The place lies inside a quoted span of a reading. -/
def Span.CutAt (spans : List Span) (n : Nat) : Prop :=
  ∃ front quote body back, spans = front ++ .quoted quote body :: back ∧
    (flatten front).length < n ∧ n < (flatten (front ++ [.quoted quote body])).length

/-- The place lies inside a quoted span of the text. -/
def Text.CutAt (s : Text) (n : Nat) : Prop := Span.CutAt (Span.scan s) n

namespace Span

variable {spans : List Span} {n : Nat}

theorem quoted_length (quote : Quote) (body : Text) : (Span.quoted quote body).text.length = body.length + 2 := by
  simp [Span.text]

theorem CutAt.positive (cut : CutAt spans n) : 0 < n := by
  obtain ⟨front, quote, body, back, -, behind, -⟩ := cut
  omega

theorem not_cutAt_unclosed {quote : Quote} {rest : Text} : ¬CutAt [.unclosed quote rest] n := by
  rintro ⟨front, quote, body, back, shape, -⟩
  obtain ⟨-, same⟩ | ⟨-, empty⟩ := List.append_eq_singleton_iff.mp shape.symm
  · cases same
  · cases empty

theorem cutAt_cons {span : Span} :
    CutAt (span :: spans) n ↔
      (span.isPlain = false ∧ (∀ quote rest, span ≠ .unclosed quote rest) ∧ 0 < n ∧ n < span.text.length) ∨
        (span.text.length ≤ n ∧ CutAt spans (n - span.text.length)) := by
  constructor
  · rintro ⟨front, quote, body, back, shape, behind, before⟩
    cases front with
    | nil =>
        obtain ⟨rfl, -⟩ := List.cons.inj shape
        refine .inl ⟨rfl, nofun, behind, ?_⟩
        simpa [flatten] using before
    | cons first front =>
        obtain ⟨rfl, rfl⟩ := List.cons.inj shape
        simp only [flatten, List.cons_append, List.flatMap_cons, List.length_append] at behind before
        refine .inr ⟨by omega, front, quote, body, back, rfl, ?_, ?_⟩
        · simp only [flatten]
          omega
        · simp only [flatten]
          omega
  · rintro (⟨marked, closed, positive, before⟩ | ⟨within, front, quote, body, back, rfl, behind, before⟩)
    · cases span with
      | plain c => cases marked
      | unclosed quote rest => exact absurd rfl (closed quote rest)
      | quoted quote body => exact ⟨[], quote, body, spans, rfl, by simpa [flatten] using positive,
          by simpa [flatten] using before⟩
    · refine ⟨span :: front, quote, body, back, rfl, ?_, ?_⟩
      · simp only [flatten, List.flatMap_cons, List.length_append] at behind ⊢
        omega
      · simp only [flatten, List.cons_append, List.flatMap_cons, List.length_append] at before ⊢
        omega

theorem not_cutAt_between (front back : List Span) : ¬CutAt (front ++ back) (flatten front).length := by
  induction front with
  | nil => exact fun cut => absurd cut.positive (Nat.lt_irrefl 0)
  | cons span front ih =>
      have size : (flatten (span :: front)).length = span.text.length + (flatten front).length := by
        simp [flatten]
      rw [List.cons_append, cutAt_cons, size, Nat.add_sub_cancel_left]
      rintro (⟨-, -, -, before⟩ | ⟨-, cut⟩)
      · omega
      · exact ih cut

end Span

namespace Text

theorem cutAt_plain {c : CodePoint} (noQuote : Quote.of? c = none) {s : Text} {n : Nat} :
    CutAt (c :: s) (n + 1) ↔ CutAt s n := by
  rw [CutAt, scan_plain noQuote, Span.cutAt_cons]
  simp [Span.isPlain, Span.text, CutAt]

theorem cutAt_quoted {quote : Quote} {body : Text} (clear : ∀ c ∈ body, c ≠ quote.closing) {s : Text} {n : Nat} :
    CutAt (quote.opening :: (body ++ quote.closing :: s)) n ↔
      (0 < n ∧ n < body.length + 2) ∨ (body.length + 2 ≤ n ∧ CutAt s (n - (body.length + 2))) := by
  rw [CutAt, scan_closed clear, Span.cutAt_cons, Span.quoted_length, ← CutAt]
  simp only [Span.isPlain, ne_eq, reduceCtorEq, not_false_eq_true, implies_true, true_and]

/-- Where a text with closed spans ends no span is cut, whatever follows. -/
theorem Closed.not_cutAt {s : Text} (closed : Closed s) (rest : Text) : ¬CutAt (s ++ rest) s.length := by
  have between := Span.not_cutAt_between (Span.scan s) (Span.scan rest)
  rwa [Span.flatten_scan, ← closed.scan_append] at between

/-- Where no span is cut, the spans before that place are closed, or no span behind it is cut: then a quote
stands before it that is never closed. -/
theorem closed_take {s : Text} {n : Nat} (uncut : ¬CutAt s n) : Closed (s.take n) ∨ ∀ m, n ≤ m → ¬CutAt s m := by
  induction s using Span.scanWith.induct Quote.of? generalizing n with
  | case1 => exact .inl (by simpa using Closed.nil)
  | case2 c s noQuote ih =>
      cases n with
      | zero => exact .inl Closed.nil
      | succ n =>
          rw [cutAt_plain noQuote] at uncut
          refine (ih uncut).imp (closed_plain noQuote).mpr fun later m behind => ?_
          obtain ⟨m, rfl⟩ : ∃ less, m = less + 1 := ⟨m - 1, by omega⟩
          rw [cutAt_plain noQuote]
          exact later m (by omega)
  | case3 c s quote opens missing =>
      obtain rfl := Quote.of?_eq_some opens
      refine .inr fun m _ => ?_
      rw [CutAt, scan_unclosed missing]
      exact Span.not_cutAt_unclosed
  | case4 c s quote opens body after found ih =>
      obtain rfl := Quote.of?_eq_some opens
      obtain rfl := cut?_append found
      have clear := cut?_before found
      simp only [cutAt_quoted clear] at uncut ⊢
      obtain rfl | positive := Nat.eq_zero_or_pos n
      · exact .inl Closed.nil
      have behind : body.length + 2 ≤ n := by
        refine Nat.le_of_not_lt fun inside => uncut (.inl ⟨positive, inside⟩)
      have later : ¬CutAt after (n - (body.length + 2)) := fun cut => uncut (.inr ⟨behind, cut⟩)
      refine (ih later).imp (fun closed => ?_) fun none m further => ?_
      · have whole : (quote.opening :: (body ++ quote.closing :: after)).take n =
            quote.opening :: (body ++ quote.closing :: after.take (n - (body.length + 2))) := by
          have shape (rest : Text) : quote.opening :: (body ++ quote.closing :: rest) =
              (Span.quoted quote body).text ++ rest := by
            simp [Span.text]
          have size := Span.quoted_length quote body
          rw [shape, shape, List.take_append, List.take_of_length_le (size ▸ behind), size]
        rw [whole]
        exact (closed_quoted clear).mpr closed
      · rintro (⟨-, inside⟩ | ⟨-, cut⟩)
        · omega
        · exact none _ (by omega) cut

/-- A text that is put together from pieces whose spans are closed, or that end where no span is cut, has no span cut
between the pieces. -/
theorem not_cutAt_pieces {before : Text} (closed : Closed before) {pieces : List Text}
    (apart : ∀ front piece, front ++ [piece] <+: pieces →
      Closed piece ∨ ¬CutAt (before ++ pieces.flatten) (before ++ (front ++ [piece]).flatten).length) :
    ∀ front, front <+: pieces → ¬CutAt (before ++ pieces.flatten) (before ++ front.flatten).length := by
  induction pieces generalizing before with
  | nil =>
      intro front inside
      obtain rfl := List.prefix_nil.mp inside
      simpa using closed.not_cutAt []
  | cons piece rest ih =>
      intro front inside
      cases front with
      | nil => simpa using closed.not_cutAt (piece :: rest).flatten
      | cons first front =>
          obtain ⟨rfl, within⟩ := List.cons_prefix_cons.mp inside
          have onward (joined : Closed (before ++ first)) : ¬CutAt (before ++ (first :: rest).flatten)
              (before ++ (first :: front).flatten).length := by
            have later := ih joined (fun others other among => ?_) front within
            · simpa using later
            · have known := apart (first :: others) other (List.cons_prefix_cons.mpr ⟨rfl, among⟩)
              simpa using known
          rcases apart [] first (by simp) with shut | uncut
          · exact onward (closed.append shut)
          · rcases closed_take uncut with joined | none
            · have whole : before ++ (first :: rest).flatten = before ++ ([] ++ [first]).flatten ++ rest.flatten := by
                simp
              rw [whole, List.take_left] at joined
              exact onward (by simpa using joined)
            · exact none _ (by simp)

end Text

end CommandScript
