import CommandScript.Proofs.Literals.Quoted

/-! Reading a text span by span. A plain character, a closed span and one that is never closed are read off the front of
a text, and a text whose spans are all closed is read by itself, whatever follows it. -/

namespace CommandScript

def Span.isPlain : Span → Bool
  | .plain _ => true
  | _ => false

theorem Span.plain_or_marked (span : Span) : (∃ c, span = .plain c) ∨ span.isPlain = false := by
  cases span with
  | plain c => exact .inl ⟨c, rfl⟩
  | quoted quote body => exact .inr rfl
  | unclosed quote rest => exact .inr rfl

theorem Span.opening_first {span : Span} (marked : span.isPlain = false) :
    ∃ (quote : Quote) (rest : Text), span.text = quote.opening :: rest := by
  cases span with
  | plain c => cases marked
  | quoted quote body => exact ⟨quote, _, rfl⟩
  | unclosed quote rest => exact ⟨quote, rest, rfl⟩

theorem Span.text_ne_nil (span : Span) : span.text ≠ [] := by cases span <;> simp [Span.text]

theorem Text.cut?_before {mark : CodePoint} {s before after : Text} (found : cut? mark s = some (before, after)) :
    ∀ c ∈ before, c ≠ mark := by
  induction s generalizing before after with
  | nil => cases found
  | cons first rest ih =>
      rw [cut?] at found
      split at found
      · obtain ⟨rfl, -⟩ := Prod.mk.injEq .. ▸ Option.some.inj found
        simp
      · rename_i other
        obtain ⟨⟨start, last⟩, inner, same⟩ := Option.map_eq_some_iff.mp found
        obtain ⟨rfl, -⟩ := Prod.mk.injEq .. ▸ same
        simpa using ⟨other, ih inner⟩

/-! The readings of a text, whichever quotes count. -/

namespace Span

variable {quoteOf : CodePoint → Option Quote}

theorem scanWith_plain {c : CodePoint} (noQuote : quoteOf c = none) (rest : Text) :
    scanWith quoteOf (c :: rest) = .plain c :: scanWith quoteOf rest := by
  rw [scanWith]
  split
  · rfl
  · rename_i quote opens
    rw [noQuote] at opens
    cases opens

theorem scanWith_closed {quote : Quote} (opens : quoteOf quote.opening = some quote) {body : Text}
    (clear : ∀ c ∈ body, c ≠ quote.closing) (rest : Text) :
    scanWith quoteOf (quote.opening :: (body ++ quote.closing :: rest)) =
      .quoted quote body :: scanWith quoteOf rest := by
  have found : Text.cut? quote.closing (body ++ quote.closing :: rest) = some (body, rest) := Text.cut?_word clear
  rw [scanWith]
  split
  · rename_i noQuote
    rw [opens] at noQuote
    cases noQuote
  · rename_i other same
    obtain rfl := Option.some.inj (opens.symm.trans same)
    split
    · rename_i missing
      rw [found] at missing
      cases missing
    · rename_i inside after cut
      obtain ⟨rfl, rfl⟩ := Prod.mk.injEq .. ▸ Option.some.inj (found.symm.trans cut)
      rfl

theorem scanWith_unclosed {quote : Quote} (opens : quoteOf quote.opening = some quote) {rest : Text}
    (missing : Text.cut? quote.closing rest = none) :
      scanWith quoteOf (quote.opening :: rest) = [.unclosed quote rest] := by
  rw [scanWith]
  split
  · rename_i noQuote
    rw [opens] at noQuote
    cases noQuote
  · rename_i other same
    obtain rfl := Option.some.inj (opens.symm.trans same)
    split
    · rfl
    · rename_i inside after cut
      rw [missing] at cut
      cases cut

variable (marks : ∀ c quote, quoteOf c = some quote → quote.opening = c)

include marks

theorem scanWith_append {s : Text} (closed : ∀ quote rest, unclosed quote rest ∉ scanWith quoteOf s) (rest : Text) :
    scanWith quoteOf (s ++ rest) = scanWith quoteOf s ++ scanWith quoteOf rest := by
  induction s using scanWith.induct quoteOf with
  | case1 => simp [scanWith]
  | case2 c s noQuote ih =>
      rw [scanWith_plain noQuote] at closed ⊢
      rw [List.cons_append, scanWith_plain noQuote, List.cons_append]
      exact congrArg _ (ih fun quote rest member => closed quote rest (List.mem_cons_of_mem _ member))
  | case3 c s quote opens missing =>
      obtain rfl := marks c quote opens
      refine absurd ?_ (closed quote s)
      rw [scanWith_unclosed opens missing]
      exact List.mem_singleton.mpr rfl
  | case4 c s quote opens body after found ih =>
      obtain rfl := marks c quote opens
      obtain rfl := Text.cut?_append found
      have clear := Text.cut?_before found
      rw [scanWith_closed opens clear] at closed ⊢
      rw [List.cons_append, List.append_assoc, List.cons_append, scanWith_closed opens clear, List.cons_append]
      exact congrArg _ (ih fun quote rest member => closed quote rest (List.mem_cons_of_mem _ member))

theorem flatten_scanWith (s : Text) : flatten (scanWith quoteOf s) = s := by
  induction s using scanWith.induct quoteOf with
  | case1 => simp [scanWith, flatten]
  | case2 c s noQuote ih =>
      rw [scanWith_plain noQuote]
      exact congrArg (c :: ·) ih
  | case3 c s quote opens missing =>
      obtain rfl := marks c quote opens
      rw [scanWith_unclosed opens missing]
      simp [flatten, text]
  | case4 c s quote opens body after found ih =>
      obtain rfl := marks c quote opens
      obtain rfl := Text.cut?_append found
      rw [flatten] at ih
      rw [scanWith_closed opens (Text.cut?_before found)]
      simp [flatten, text, ih]

theorem scanWith_front {s : Text} {front back : List Span} (read : scanWith quoteOf s = front ++ back)
    (closed : ∀ quote rest, unclosed quote rest ∉ front) : scanWith quoteOf (flatten front) = front := by
  induction s using scanWith.induct quoteOf generalizing front with
  | case1 =>
      rw [scanWith] at read
      obtain ⟨rfl, -⟩ := List.append_eq_nil_iff.mp read.symm
      simp [flatten, scanWith]
  | case2 c s noQuote ih =>
      rw [scanWith_plain noQuote] at read
      cases front with
      | nil => simp [flatten, scanWith]
      | cons span front =>
          obtain ⟨rfl, later⟩ := List.cons.inj read
          rw [show flatten (plain c :: front) = c :: flatten front from rfl, scanWith_plain noQuote]
          exact congrArg _ (ih later fun quote rest member => closed quote rest (List.mem_cons_of_mem _ member))
  | case3 c s quote opens missing =>
      obtain rfl := marks c quote opens
      rw [scanWith_unclosed opens missing] at read
      cases front with
      | nil => simp [flatten, scanWith]
      | cons span front =>
          obtain ⟨rfl, -⟩ := List.cons.inj read
          exact absurd List.mem_cons_self (closed quote s)
  | case4 c s quote opens body after found ih =>
      obtain rfl := marks c quote opens
      obtain rfl := Text.cut?_append found
      have clear := Text.cut?_before found
      rw [scanWith_closed opens clear] at read
      cases front with
      | nil => simp [flatten, scanWith]
      | cons span front =>
          obtain ⟨rfl, later⟩ := List.cons.inj read
          have whole : flatten (quoted quote body :: front) =
              quote.opening :: (body ++ quote.closing :: flatten front) := by
            simp [flatten, text]
          rw [whole, scanWith_closed opens clear]
          exact congrArg _ (ih later fun quote rest member => closed quote rest (List.mem_cons_of_mem _ member))

theorem scanWith_back {s : Text} {front back : List Span} (read : scanWith quoteOf s = front ++ back)
    (closed : ∀ quote rest, unclosed quote rest ∉ front) : scanWith quoteOf (flatten back) = back := by
  have whole : s = flatten front ++ flatten back := by
    rw [← flatten_scanWith marks s, read, flatten, List.flatMap_append, ← flatten, ← flatten]
  have first := scanWith_front marks read closed
  have split := scanWith_append marks (first.symm ▸ closed) (flatten back)
  rw [← whole, read, first] at split
  exact (List.append_cancel_left split).symm

theorem scanWith_closed_before {s : Text} {front back : List Span} {span : Span}
    (read : scanWith quoteOf s = front ++ span :: back) : ∀ quote rest, unclosed quote rest ∉ front := by
  induction s using scanWith.induct quoteOf generalizing front with
  | case1 =>
      rw [scanWith] at read
      cases front <;> cases read
  | case2 c s noQuote ih =>
      rw [scanWith_plain noQuote] at read
      cases front with
      | nil => simp
      | cons first front =>
          obtain ⟨rfl, later⟩ := List.cons.inj read
          simpa using ih later
  | case3 c s quote opens missing =>
      obtain rfl := marks c quote opens
      rw [scanWith_unclosed opens missing] at read
      obtain ⟨rfl, -⟩ | ⟨-, empty⟩ := List.append_eq_singleton_iff.mp read.symm
      · simp
      · cases empty
  | case4 c s quote opens body after found ih =>
      obtain rfl := marks c quote opens
      obtain rfl := Text.cut?_append found
      rw [scanWith_closed opens (Text.cut?_before found)] at read
      cases front with
      | nil => simp
      | cons first front =>
          obtain ⟨rfl, later⟩ := List.cons.inj read
          simpa using ih later

end Span

namespace Text

theorem scan_plain {c : CodePoint} (noQuote : Quote.of? c = none) (rest : Text) :
    Span.scan (c :: rest) = .plain c :: Span.scan rest :=
  Span.scanWith_plain noQuote rest

theorem scan_closed {quote : Quote} {body : Text} (clear : ∀ c ∈ body, c ≠ quote.closing) (rest : Text) :
    Span.scan (quote.opening :: (body ++ quote.closing :: rest)) = .quoted quote body :: Span.scan rest :=
  Span.scanWith_closed (Quote.of?_opening quote) clear rest

theorem scan_unclosed {quote : Quote} {rest : Text} (missing : cut? quote.closing rest = none) :
    Span.scan (quote.opening :: rest) = [.unclosed quote rest] :=
  Span.scanWith_unclosed (Quote.of?_opening quote) missing

def Closed (s : Text) : Prop := ∀ quote rest, Span.unclosed quote rest ∉ Span.scan s

theorem Closed.nil : Closed [] := fun quote rest => by simp [Span.scan, Span.scanWith]

theorem closed_plain {c : CodePoint} (noQuote : Quote.of? c = none) {rest : Text} :
    Closed (c :: rest) ↔ Closed rest := by
  simp only [Closed, scan_plain noQuote, List.mem_cons, reduceCtorEq, false_or]

theorem closed_quoted {quote : Quote} {body : Text} (clear : ∀ c ∈ body, c ≠ quote.closing) {rest : Text} :
    Closed (quote.opening :: (body ++ quote.closing :: rest)) ↔ Closed rest := by
  simp only [Closed, scan_closed clear, List.mem_cons, reduceCtorEq, false_or]

theorem Closed.scan_append {s : Text} (closed : Closed s) (rest : Text) :
    Span.scan (s ++ rest) = Span.scan s ++ Span.scan rest :=
  Span.scanWith_append (fun _ _ => Quote.of?_eq_some) closed rest

theorem Closed.append {s rest : Text} (closed : Closed s) (closedRest : Closed rest) : Closed (s ++ rest) := by
  intro quote body member
  rw [closed.scan_append, List.mem_append] at member
  exact member.elim (closed quote body) (closedRest quote body)

theorem Unquoted.closed {s : Text} (unquoted : s.Unquoted) : Closed s := fun quote rest => by
  rw [Span.scan_unquoted unquoted]
  simp

end Text

end CommandScript
