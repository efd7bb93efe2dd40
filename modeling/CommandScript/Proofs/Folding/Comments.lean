import CommandScript.Lines
import CommandScript.Proofs.Comments.Stripping

/-! Comments and folding. What a physical line adds is decided by the text that is left of it, so a comment behind a
line whose quotes are closed changes nothing. A brace that is opened at the end of a line takes the comment in. -/

namespace CommandScript.Lines

theorem clean_eq (raw : Text) : clean raw = Text.trim (Text.stripComment raw) := by
  let isEnd : CodePoint → Bool := fun c => c = '\n' || c = '\r'
  let ends := (raw.reverse.takeWhile isEnd).reverse
  have whole : raw = (raw.reverse.dropWhile isEnd).reverse ++ ends := by
    rw [← List.reverse_append, List.takeWhile_append_dropWhile, List.reverse_reverse]
  have blank : ∀ c ∈ ends, Text.isBlank c = true := by
    intro c member
    have marked : isEnd c = true := List.mem_takeWhile_imp (List.mem_reverse.mp member)
    rcases (by simpa [isEnd] using marked : c = '\n' ∨ c = '\r') with rfl | rfl <;> decide
  conv_rhs => rw [whole]
  exact (Text.trim_stripComment_append blank _).symm

theorem foldFrom_congr {physical others : List Text} (same : physical.map clean = others.map clean)
    (part : Option Open) (number : Nat) : foldFrom part number physical = foldFrom part number others := by
  induction physical generalizing others part number with
  | nil =>
      obtain rfl : others = [] := by simpa using same.symm
      rfl
  | cons raw rest ih =>
      cases others with
      | nil => cases same
      | cons other more =>
          obtain ⟨first, later⟩ := List.cons.inj same
          have extended : extend part raw = extend part other := by rw [extend, extend, first]
          rw [foldFrom, foldFrom, extended]
          simp only [ih later]

/-- A line that may be followed by a comment: its quotes are closed, or it has a comment already. -/
def TakesComment (line : Text) : Prop := line.Closed ∨ line.Commented

theorem TakesComment.clean_append {line gap : Text} (takes : TakesComment line)
    (blank : ∀ c ∈ gap, Text.isBlank c = true) (note : Text) :
      clean (line ++ gap ++ .char '#' :: note) = clean line := by
  rw [clean_eq, clean_eq]
  rcases takes with closed | commented
  · have closedGap : gap.Closed := Text.Unquoted.closed fun c member => Lexeme.blank_unquoted (blank c member)
    rw [(closed.append closedGap).stripComment, Text.trim_stripComment_append blank]
  · rw [List.append_assoc, commented.stripComment]

/-- Behind a brace that is opened outside of comments, what looks like a comment is text of the span. -/
theorem clean_opened {line inside : Text} (closed : line.Closed) (uncommented : ¬ line.Commented)
    (notClosing : .char '\x7d' ∉ inside) :
    clean (line ++ .char '\x7b' :: inside) = Text.trim (line ++ .char '\x7b' :: inside) := by
  have kept : ∀ spans : List Span, Span.plain (.char '#') ∉ spans →
      Text.beforeComment (spans ++ [.unclosed .brace inside]) = Span.flatten spans ++ .char '\x7b' :: inside := by
    intro spans absent
    induction spans with
    | nil => simp [Text.beforeComment, Span.text, Span.flatten, Quote.opening]
    | cons span spans ih =>
        have inner := ih fun member => absent (List.mem_cons_of_mem _ member)
        cases span with
        | plain c =>
            have other : c ≠ '#' := fun same => absent (same ▸ List.mem_cons_self)
            simp [Text.beforeComment, other, inner, Span.flatten, Span.text]
        | quoted quote body => simp [Text.beforeComment, inner, Span.flatten]
        | unclosed quote rest => simp [Text.beforeComment, inner, Span.flatten]
  have scanned : Span.scan (.char '\x7b' :: inside) = [.unclosed .brace inside] :=
    @Text.scan_unclosed .brace inside (Text.cut?_eq_none.mpr notClosing)
  rw [clean_eq, Text.stripComment, closed.scan_append, scanned, kept _ uncommented, Span.flatten_scan]

/-- A comment behind a line whose quotes are closed changes nothing of what is folded: neither the logical lines nor
their numbers, nor what is asked and warned of. Behind an opening brace it is not a comment but text of the line. -/
theorem fold_comment {line gap : Text} (blank : ∀ c ∈ gap, Text.isBlank c = true) (note : Text) :
    (TakesComment line → ∀ before after,
      fold (before ++ (line ++ gap ++ .char '#' :: note) :: after) = fold (before ++ line :: after)) ∧
    (line.Closed → ¬ line.Commented → .char '\x7d' ∉ note →
      clean (line ++ .char '\x7b' :: (gap ++ .char '#' :: note)) =
        Text.trim (line ++ .char '\x7b' :: (gap ++ .char '#' :: note))) := by
  refine ⟨fun takes before after => ?_, fun closed uncommented notClosing => ?_⟩
  · apply foldFrom_congr
    simp only [List.map_append, List.map_cons, takes.clean_append blank]
  · refine clean_opened closed uncommented fun member => ?_
    simp only [List.mem_append, List.mem_cons] at member
    rcases member with white | sign | later
    · exact absurd (blank _ white) (by decide)
    · cases sign
    · exact notClosing later

/-- A continued line in an open span with quotes and marks in its comment, and a comment behind an opening brace. -/
theorem fold_comment_quotes :
    fold ["f \x7b", "print \"a # b\" \\ # don't \x7b", "c", "\x7d"] =
      fold ["f \x7b", "print \"a # b\" \\", "c", "\x7d"] ∧
      clean "f \x7b # it's" = Text.trim "f \x7b # it's" :=
  have blank : ∀ c ∈ (" " : Text), Text.isBlank c = true := by decide
  ⟨(@fold_comment "print \"a # b\" \\" " " blank " don't \x7b").1 (.inl (by decide +kernel)) ["f \x7b"] ["c", "\x7d"],
    (@fold_comment "f " " " blank " it's").2 (by decide +kernel) (by decide +kernel) (by decide)⟩

end CommandScript.Lines
