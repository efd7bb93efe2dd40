import CommandScript.Proofs.Grammar.Quotes

/-! What is left of a text when its comment is dropped. The comment starts at the first number sign outside quoted
spans, so it depends on the spans before it only; white space around what is left does not count. -/

namespace CommandScript.Text

/-! White space at the ends of a text. -/

theorem trimRight_append {gap : Text} (blank : ∀ c ∈ gap, isBlank c = true) (s : Text) :
    trimRight (s ++ gap) = trimRight s := by
  rw [trimRight, List.reverse_append, List.dropWhile_append_of_pos, trimRight]
  intro c member
  exact blank c (List.mem_reverse.mp member)

theorem trim_append {gap : Text} (blank : ∀ c ∈ gap, isBlank c = true) (s : Text) : trim (s ++ gap) = trim s := by
  have nothing : gap.dropWhile isBlank = [] := List.dropWhile_eq_nil_iff.mpr blank
  rw [trim, trim, trimLeft, List.dropWhile_append]
  split
  · rename_i empty
    rw [nothing, trimLeft, List.isEmpty_iff.mp empty]
  · exact trimRight_append blank _

theorem trimRight_gap (s : Text) : ∃ gap, s = trimRight s ++ gap ∧ ∀ c ∈ gap, isBlank c = true := by
  refine ⟨(s.reverse.takeWhile isBlank).reverse, ?_, ?_⟩
  · rw [trimRight, ← List.reverse_append, List.takeWhile_append_dropWhile, List.reverse_reverse]
  · intro c member
    exact (List.mem_takeWhile_imp (List.mem_reverse.mp member))

theorem trimLeft_before {c : CodePoint} (visible : isBlank c = false) (before after : Text) :
    trimLeft (before ++ c :: after) = trimLeft before ++ c :: after := by
  have kept : (c :: after).dropWhile isBlank = c :: after := List.dropWhile_cons_of_neg (by simp [visible])
  rw [trimLeft, List.dropWhile_append, kept]
  split
  · rename_i empty
    rw [trimLeft, List.isEmpty_iff.mp empty, List.nil_append]
  · rfl

theorem trimRight_after {c : CodePoint} (visible : isBlank c = false) (before after : Text) :
    trimRight (before ++ c :: after) = before ++ c :: trimRight after := by
  have kept : (c :: before.reverse).dropWhile isBlank = c :: before.reverse :=
    List.dropWhile_cons_of_neg (by simp [visible])
  rw [trimRight, List.reverse_append, List.reverse_cons, List.append_assoc, List.singleton_append,
    List.dropWhile_append, kept, trimRight]
  split
  · rename_i empty
    simp [List.isEmpty_iff.mp empty]
  · simp

theorem trim_around {c : CodePoint} (visible : isBlank c = false) (before after : Text) :
    trim (before ++ c :: after) = trimLeft before ++ c :: trimRight after := by
  rw [trim, trimLeft_before visible, trimRight_after visible]

theorem Closed.trimLeft {s : Text} (closed : Closed s) : Closed (trimLeft s) := by
  induction s with
  | nil => exact closed
  | cons c rest ih =>
      by_cases white : isBlank c = true
      · rw [Text.trimLeft, List.dropWhile_cons_of_pos white]
        exact ih ((closed_plain (Lexeme.blank_unquoted white)).mp closed)
      · rw [Text.trimLeft, List.dropWhile_cons_of_neg white]
        exact closed

def isUnclosed : Span → Bool
  | .unclosed _ _ => true
  | _ => false

theorem closed_iff {s : Text} : Closed s ↔ ∀ span ∈ Span.scan s, isUnclosed span = false := by
  constructor
  · intro closed span member
    cases span with
    | unclosed quote rest => exact absurd member (closed quote rest)
    | plain c => rfl
    | quoted quote body => rfl
  · intro all quote rest member
    cases all _ member

instance (s : Text) : Decidable (Closed s) := decidable_of_iff _ closed_iff.symm

/-! The text before a comment, span by span. -/

theorem stripComment_plain {c : CodePoint} (noQuote : Quote.of? c = none) (rest : Text) :
    stripComment (c :: rest) = if c = '#' then [] else c :: stripComment rest := by
  rw [stripComment, scan_plain noQuote, beforeComment, stripComment]

theorem stripComment_span {quote : Quote} {body : Text} (clear : ∀ c ∈ body, c ≠ quote.closing) (rest : Text) :
    stripComment (quote.opening :: (body ++ quote.closing :: rest)) =
      quote.opening :: (body ++ quote.closing :: stripComment rest) := by
  rw [stripComment, scan_closed clear, beforeComment, stripComment]
  · simp [Span.text]
  · rintro c ⟨⟩

theorem stripComment_unclosed {quote : Quote} {rest : Text} (missing : cut? quote.closing rest = none) :
    stripComment (quote.opening :: rest) = quote.opening :: rest := by
  rw [stripComment, scan_unclosed missing]
  simp [beforeComment, Span.text]

def Commented (s : Text) : Prop := Span.plain (.char '#') ∈ Span.scan s

instance (s : Text) : Decidable (Commented s) := inferInstanceAs (Decidable (_ ∈ _))

theorem cut?_eq_none {mark : CodePoint} {s : Text} : cut? mark s = none ↔ mark ∉ s := by
  induction s with
  | nil => simp [cut?]
  | cons c rest ih =>
      by_cases same : c = mark
      · simp [cut?, same]
      · simp [cut?, same, ih, Ne.symm same]

theorem Commented.stripComment {s : Text} (commented : Commented s) (rest : Text) :
    stripComment (s ++ rest) = stripComment s := by
  induction s using Span.scanWith.induct Quote.of? with
  | case1 => simp [Commented, Span.scan, Span.scanWith] at commented
  | case2 c s noQuote ih =>
      rw [List.cons_append, stripComment_plain noQuote, stripComment_plain noQuote]
      by_cases mark : c = '#'
      · rw [if_pos mark, if_pos mark]
      · rw [Commented, scan_plain noQuote] at commented
        have later : Commented s :=
          (List.mem_cons.mp commented).resolve_left fun same => mark (Span.plain.inj same).symm
        rw [if_neg mark, if_neg mark, ih later]
  | case3 c s quote opens missing =>
      obtain rfl := Quote.of?_eq_some opens
      rw [Commented, scan_unclosed missing] at commented
      simp at commented
  | case4 c s quote opens body after found ih =>
      obtain rfl := Quote.of?_eq_some opens
      obtain rfl := cut?_append found
      have clear := cut?_before found
      rw [Commented, scan_closed clear] at commented
      have later : Commented after := by
        rcases List.mem_cons.mp commented with first | later
        · cases first
        · exact later
      rw [List.cons_append, List.append_assoc, List.cons_append, stripComment_span clear, stripComment_span clear,
        ih later]

theorem cut?_append_blank {gap : Text} (blank : ∀ c ∈ gap, isBlank c = true) (quote : Quote) {s : Text}
    (missing : cut? quote.closing s = none) : cut? quote.closing (s ++ gap) = none := by
  rw [cut?_eq_none] at missing ⊢
  intro member
  rcases List.mem_append.mp member with inside | behind
  · exact missing inside
  · have white := blank _ behind
    revert white
    cases quote <;> decide

theorem stripComment_append_blank {gap : Text} (blank : ∀ c ∈ gap, isBlank c = true) (s : Text) :
    stripComment (s ++ gap) = stripComment s ∨ stripComment (s ++ gap) = stripComment s ++ gap := by
  induction s using Span.scanWith.induct Quote.of? with
  | case1 =>
      right
      have unquoted : Unquoted gap := fun c member => Lexeme.blank_unquoted (blank c member)
      have noComment : .char '#' ∉ gap := fun member => absurd (blank _ member) (by decide)
      rw [List.nil_append, stripComment_unquoted unquoted noComment]
      simp [stripComment, Span.scan, Span.scanWith, beforeComment]
  | case2 c s noQuote ih =>
      rw [List.cons_append, stripComment_plain noQuote, stripComment_plain noQuote]
      by_cases mark : c = '#'
      · simp [mark]
      · simpa [mark] using ih
  | case3 c s quote opens missing =>
      right
      obtain rfl := Quote.of?_eq_some opens
      rw [List.cons_append, stripComment_unclosed (cut?_append_blank blank quote missing),
        stripComment_unclosed missing, List.cons_append]
  | case4 c s quote opens body after found ih =>
      obtain rfl := Quote.of?_eq_some opens
      obtain rfl := cut?_append found
      have clear := cut?_before found
      rw [List.cons_append, List.append_assoc, List.cons_append, stripComment_span clear, stripComment_span clear]
      rcases ih with same | longer
      · left
        rw [same]
      · right
        simp [longer]

theorem trim_stripComment_append {gap : Text} (blank : ∀ c ∈ gap, isBlank c = true) (s : Text) :
    trim (stripComment (s ++ gap)) = trim (stripComment s) := by
  rcases stripComment_append_blank blank s with same | longer
  · rw [same]
  · rw [longer, trim_append blank]

/-- A number sign behind closed spans starts a comment, if none has started before. -/
theorem Closed.stripComment {s : Text} (closed : Closed s) (note : Text) :
    stripComment (s ++ .char '#' :: note) = stripComment s := by
  have added : ∀ spans : List Span, beforeComment (spans ++ Span.scan (.char '#' :: note)) = beforeComment spans := by
    intro spans
    induction spans with
    | nil => simp [scan_plain (show Quote.of? '#' = none by decide), beforeComment]
    | cons span spans ih => cases span <;> simp [beforeComment, ih]
  rw [Text.stripComment, closed.scan_append, added, Text.stripComment]

end CommandScript.Text
