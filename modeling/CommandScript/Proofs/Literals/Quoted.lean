import CommandScript.Proofs.Integers.Lines
import CommandScript.Words
import Mathlib.Data.List.Infix

/-!
A text in double quotes, read by the scanners of a line. Each of them has its own rules for what counts,
but all of them pass over the span from the opening quote to the next one, so a body without a double
quote comes through whatever else it holds.
-/

namespace CommandScript

def Text.quoted (body : Text) : Text := .char '"' :: body ++ (['"'] : Text)

theorem Text.quoted_eq (body : Text) : Text.quoted body = .char '"' :: (body ++ (['"'] : Text)) := rfl

theorem Text.cut?_body {body : Text} (clear : .char '"' ∉ body) (rest : Text) :
    Text.cut? '"' (body ++ .char '"' :: rest) = some (body, rest) :=
  Text.cut?_word fun _ member same => clear (same ▸ member)

theorem Text.quoted_getLast? (before body : Text) : (before ++ Text.quoted body).getLast? = some (.char '"') := by
  have final : before ++ Text.quoted body = (before ++ .char '"' :: body) ++ (['"'] : Text) := by simp [Text.quoted]
  rw [final, List.getLast?_concat]

/-- A line that starts with a letter and ends with a quoted text is not trimmed. -/
theorem Text.trim_quoted {c : CodePoint} (visible : Text.isBlank c = false) (before body : Text) :
    Text.trim (c :: before ++ Text.quoted body) = c :: before ++ Text.quoted body := by
  apply Text.trim_visible
  · rintro _ ⟨⟩
    exact visible
  · rw [Text.quoted_getLast?]
    rintro _ ⟨⟩
    decide

theorem Text.trim_quoted_alone (body : Text) : Text.trim (Text.quoted body) = Text.quoted body := by
  apply Text.trim_visible
  · rintro _ ⟨⟩
    decide
  · rw [← List.nil_append (Text.quoted body), Text.quoted_getLast?]
    rintro _ ⟨⟩
    decide

namespace Span

theorem scan_append {before : Text} (unquoted : before.Unquoted) (rest : Text) :
    scan (before ++ rest) = before.map plain ++ scan rest := by
  unfold scan
  induction before with
  | nil => rfl
  | cons c before ih =>
      have noQuote := unquoted c (by simp)
      rw [List.cons_append, scanWith]
      split
      · rw [ih unquoted.tail, List.map_cons, List.cons_append]
      · rename_i quote opens
        rw [noQuote] at opens
        cases opens

theorem scan_quoted {body : Text} (clear : .char '"' ∉ body) : scan (Text.quoted body) = [quoted .double body] := by
  rw [scan, Text.quoted_eq, scanWith]
  split
  · rename_i noQuote
    exact absurd noQuote (by decide)
  · rename_i quote opens
    cases (show Quote.of? '"' = some .double from rfl).symm.trans opens
    split
    · rename_i missing
      rw [show Quote.closing .double = '"' from rfl, Text.cut?_body clear] at missing
      cases missing
    · rename_i inside after found
      rw [show Quote.closing .double = '"' from rfl, Text.cut?_body clear] at found
      cases found
      simp [scanWith]

end Span

namespace Text

/-- A character that means nothing to the scanners of a line. -/
def isInert (c : CodePoint) : Bool :=
  (Quote.of? c).isNone && !endsStatement c && c ≠ '#' && decide (Uncounted c)

theorem isInert_iff {c : CodePoint} :
    isInert c = true ↔ Quote.of? c = none ∧ endsStatement c = false ∧ c ≠ '#' ∧ Uncounted c := by
  simp [isInert, and_assoc]

variable {before body : Text}

theorem unquoted_inert (inert : before.all isInert = true) : before.Unquoted := by
  intro c member
  exact (isInert_iff.mp (List.all_eq_true.mp inert c member)).1

theorem beforeComment_append (inert : before.all isInert = true) (spans : List Span) :
    beforeComment (before.map .plain ++ spans) = before ++ beforeComment spans := by
  induction before with
  | nil => rfl
  | cons c before ih =>
      simp only [List.all_cons, Bool.and_eq_true, isInert_iff] at inert
      obtain ⟨⟨-, -, noComment, -⟩, later⟩ := inert
      rw [List.map_cons, List.cons_append, beforeComment, if_neg noComment, ih later, List.cons_append]

theorem stripComment_quoted (inert : before.all isInert = true) (clear : .char '"' ∉ body) :
    stripComment (before ++ quoted body) = before ++ quoted body := by
  rw [stripComment, Span.scan_append (unquoted_inert inert), Span.scan_quoted clear, beforeComment_append inert]
  simp [beforeComment, Span.text, Quote.opening, Quote.closing, quoted]

theorem countMarks_append (inert : before.all isInert = true) {parens brackets : Nat} (spans : List Span) :
    countMarks parens brackets (before.map .plain ++ spans) = countMarks parens brackets spans := by
  induction before with
  | nil => rfl
  | cons c before ih =>
      simp only [List.all_cons, Bool.and_eq_true, isInert_iff] at inert
      obtain ⟨⟨-, -, -, noOpen, noClose, noLeft, noRight⟩, later⟩ := inert
      simp only [List.map_cons, List.cons_append, countMarks, if_neg noOpen, if_neg noClose, if_neg noLeft,
        if_neg noRight]
      exact ih later

theorem checkBalance_quoted (inert : before.all isInert = true) (clear : .char '"' ∉ body) :
    checkBalance (before ++ quoted body) = .ok () := by
  rw [checkBalance, Span.scan_append (unquoted_inert inert), Span.scan_quoted clear, countMarks_append inert]
  rfl

theorem pieces_append (inert : before.all isInert = true) {spans : List Span} {first : Text} {more : List Text}
    (found : pieces spans = .ok (first :: more)) :
    pieces (before.map .plain ++ spans) = .ok ((before ++ first) :: more) := by
  induction before with
  | nil => exact found
  | cons c before ih =>
      simp only [List.all_cons, Bool.and_eq_true, isInert_iff] at inert
      obtain ⟨⟨-, goesOn, -, -⟩, later⟩ := inert
      rw [List.map_cons, List.cons_append, pieces, ih later, goesOn]
      rfl

theorem splitStatements_quoted {c : CodePoint} (visible : isBlank c = false) (inert : (c :: before).all isInert = true)
    (clear : .char '"' ∉ body) :
    splitStatements (c :: before ++ quoted body) = .ok [c :: before ++ quoted body] := by
  have alone : pieces [.quoted .double body] = .ok [quoted body] := by
    simp [pieces, Except.map, prepend, Span.text, Quote.opening, Quote.closing, quoted]
  have trimmed := trim_quoted visible before body
  rw [splitStatements, Span.scan_append (unquoted_inert inert), Span.scan_quoted clear, pieces_append inert alone]
  rw [List.cons_append] at trimmed ⊢
  simp [Except.map, trimmed]

end Text

namespace AliasTable

theorem replacement_kept {tables : List AliasTable} {word : Text}
    (undefined : ∀ table ∈ tables, table.has word = false) : replacement tables word = word := by
  have missing : tables.findSome? (find? · word) = none := by
    rw [List.findSome?_eq_none_iff]
    intro table member
    simpa [has] using undefined table member
  unfold replacement
  split
  · rename_i empty
    exact (List.isEmpty_iff.mp empty).symm
  · rw [missing]
    rfl

theorem substitute_masked (tables : List AliasTable) {pairs : List (CodePoint × CodePoint)}
    (masked : ∀ pair ∈ pairs, isDelimiter pair.2 = true) : substitute tables [] pairs = pairs.map (·.1) := by
  induction pairs with
  | nil => rfl
  | cons pair rest ih =>
      obtain ⟨c, blank⟩ := pair
      have delimits : isDelimiter blank = true := masked (c, blank) (by simp)
      rw [substitute, if_pos delimits, ih fun other member => masked other (by simp [member])]
      rfl

@[simp] theorem blankKeywords_nil : blankKeywords [] = [] := by rw [blankKeywords.eq_def]

theorem blankKeywords_cons {c : CodePoint} {rest : Text} (noKeyword : keywordLength (c :: rest) = 0) :
    blankKeywords (c :: rest) = c :: blankKeywords rest := by
  rw [blankKeywords.eq_def]
  simp only [noKeyword]

theorem blankKeywords_keyword {c : CodePoint} {rest : Text} {more : Nat}
    (keyword : keywordLength (c :: rest) = more + 1) :
    blankKeywords (c :: rest) = spaces (more + 1) ++ blankKeywords (rest.drop more) := by
  rw [blankKeywords.eq_def]
  simp only [keyword]

theorem blankKeywords_spaces (n : Nat) : blankKeywords (spaces n) = spaces n := by
  induction n with
  | zero => exact blankKeywords_nil
  | succ n ih =>
      rw [spaces, List.replicate_succ, blankKeywords_cons rfl]
      exact congrArg _ ih

theorem blankKeywords_none {line : Text} (none : ∀ part ∈ line.tails, keywordLength part = 0) :
    blankKeywords line = line := by
  induction line with
  | nil => exact blankKeywords_nil
  | cons c rest ih =>
      rw [List.tails_cons, List.forall_mem_cons] at none
      rw [blankKeywords_cons none.1, ih none.2]

theorem blankQuotes_append (before : Text) (spans : List Span) :
    blankQuotes (before.map .plain ++ spans) = before ++ blankQuotes spans := by
  induction before with
  | nil => rfl
  | cons c before ih => rw [List.map_cons, List.cons_append, blankQuotes, ih, List.cons_append]

theorem blankQuotes_quoted {before body : Text} (inert : before.all Text.isInert = true) (clear : .char '"' ∉ body) :
    blankQuotes (Span.scan (before ++ Text.quoted body)) = before ++ spaces (body.length + 2) := by
  rw [Span.scan_append (Text.unquoted_inert inert), Span.scan_quoted clear, blankQuotes_append]
  simp [blankQuotes, Span.text]

theorem mask_inert {line : Text} (inert : line.all Text.isInert = true)
    (noKeyword : ∀ part ∈ line.tails, keywordLength part = 0) (noDefinition : blankDefinition line = line) :
    mask line = line := by
  have noQuotes : blankQuotes (line.map .plain) = line := by simpa [blankQuotes] using blankQuotes_append line []
  rw [mask, Span.scan_unquoted (Text.unquoted_inert inert), noQuotes, blankKeywords_none noKeyword, noDefinition]

end AliasTable

theorem Piece.ofStored_quoted {body : Text} (clear : .char '"' ∉ body) :
    Piece.ofStored (Text.quoted body) = [.verbatim body] := by
  rw [Text.quoted_eq, Piece.ofStored, if_neg (by decide)]
  split
  · rename_i quote opens
    cases (show Quote.of? '"' = some .double from rfl).symm.trans opens
    split
    · rename_i missing
      rw [show Quote.closing .double = '"' from rfl, Text.cut?_body clear] at missing
      cases missing
    · rename_i inside after found
      rw [show Quote.closing .double = '"' from rfl, Text.cut?_body clear] at found
      cases found
      simp [Piece.ofStored]
  · rename_i noQuote
    exact absurd noQuote (by decide)

theorem Text.stripQuotes_quoted (body : Text) : Text.stripQuotes (Text.quoted body) = body := by
  have last : (body ++ (['"'] : Text)).getLast? = some (.char '"') := List.getLast?_concat
  simp [Text.quoted, Text.stripQuotes, last, show Quote.ofStraight? '"' = some .double from rfl]

theorem Value.classify_quoted (body : Text) : Value.classify (Text.quoted body) = .ok (.text body) := by
  have noInteger : Number.parseInt (Text.quoted body) = .ok none := by
    rw [Number.parseInt, Text.trim_quoted_alone]
    rfl
  have noDecimal : Number.parseDecimal (Text.quoted body) = none := by
    rw [Number.parseDecimal, Text.trim_quoted_alone]
    rfl
  rw [Value.classify, noInteger, noDecimal, Text.trim_quoted_alone, Text.stripQuotes_quoted]

end CommandScript
