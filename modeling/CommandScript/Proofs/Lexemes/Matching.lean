import CommandScript.Proofs.Brackets.Scanning
import CommandScript.Proofs.Text.Pairs

/-! Brackets that are matched. The check of balance passes over brackets in quotes, the lexer counts them too. If the
quotes that stand in brackets hold brackets in pairs only, both find the same closing bracket. -/

namespace CommandScript

namespace Lexeme

theorem cutBracket_pairs {depth : Nat} {body : Text} (pairs : Pairs (.char '[') (.char ']') depth body)
    (outer : Nat) (rest : Text) :
    cutBracket (outer + depth) (body ++ rest) = (body ++ (cutBracket outer rest).1, (cutBracket outer rest).2) := by
  induction body generalizing depth with
  | nil =>
      obtain rfl := Pairs.nil_iff.mp pairs
      rfl
  | cons c body ih =>
      rw [List.cons_append, cutBracket]
      by_cases opens : c = '['
      · subst opens
        rw [if_neg (by simp), if_pos rfl, Nat.add_assoc, ih ((Pairs.opening_iff (by decide)).mp pairs)]
        rfl
      by_cases closes : c = ']'
      · subst closes
        obtain ⟨less, rfl, later⟩ := (Pairs.closing_iff (by decide)).mp pairs
        rw [if_neg (by simp), if_neg (by decide), if_pos rfl, ← Nat.add_assoc, Nat.add_sub_cancel, ih later]
        rfl
      · rw [if_neg fun ends => closes ends.1, if_neg opens, if_neg closes, ih ((Pairs.other_iff opens closes).mp pairs)]
        rfl

theorem pairs_span {body : Text} (pairs : Pairs (.char '[') (.char ']') 0 body) (quote : Quote) :
    Pairs (.char '[') (.char ']') 0 (Span.quoted quote body).text := by
  have noBracket : quote.opening ≠ '[' ∧ quote.opening ≠ ']' ∧ quote.closing ≠ '[' ∧ quote.closing ≠ ']' := by
    cases quote <;> decide
  obtain ⟨opens, opens', closes, closes'⟩ := noBracket
  have mark : Pairs (.char '[') (.char ']') 0 [quote.closing] :=
    (Pairs.other_iff closes closes').mpr (Pairs.nil_iff.mpr rfl)
  exact (Pairs.other_iff opens opens').mpr (pairs.append (by decide) mark)

end Lexeme

namespace Text

/-- The quotes that stand in brackets hold brackets in pairs only; `depth` brackets are open before the spans. -/
def PairedInBrackets (depth : Nat) : List Span → Prop
  | [] => True
  | .unclosed _ _ :: rest => PairedInBrackets depth rest
  | .quoted _ body :: rest => (depth = 0 ∨ Pairs (.char '[') (.char ']') 0 body) ∧ PairedInBrackets depth rest
  | .plain c :: rest =>
    PairedInBrackets (if c = '[' then depth + 1 else if c = ']' then depth - 1 else depth) rest

instance PairedInBrackets.decidable (depth : Nat) (spans : List Span) : Decidable (PairedInBrackets depth spans) :=
  match spans with
  | [] => .isTrue trivial
  | .unclosed _ _ :: rest => decidable depth rest
  | .quoted _ _ :: rest => @instDecidableAnd _ _ inferInstance (decidable depth rest)
  | .plain _ :: rest => decidable _ rest

/-- A text inside a number of brackets: it closes all of them and all that it opens, and quotes in brackets hold
brackets in pairs only. -/
structure Matched (depth : Nat) (s : Text) : Prop where
  paired : PairedInBrackets depth (Span.scan s)
  counted : ∃ parens parens', countMarks parens depth (Span.scan s) = .ok (parens', 0)

namespace Matched

variable {depth : Nat} {s : Text}

theorem tail {c : CodePoint} (noQuote : Quote.of? c = none) (matched : Matched depth (c :: s)) :
    (c = '[' ∧ Matched (depth + 1) s) ∨ (c = ']' ∧ ∃ less, depth = less + 1 ∧ Matched less s) ∨
      (c ≠ '[' ∧ c ≠ ']' ∧ Matched depth s) := by
  obtain ⟨paired, parens, parens', counted⟩ := matched
  rw [scan_plain noQuote] at paired counted
  rw [PairedInBrackets] at paired
  rcases countMarks_brackets counted with ⟨rfl, later⟩ | ⟨rfl, less, rfl, later⟩ | ⟨left, right, _, later⟩
  · exact .inl ⟨rfl, paired, _, _, later⟩
  · exact .inr (.inl ⟨rfl, less, rfl, paired, _, _, later⟩)
  · rw [if_neg left, if_neg right] at paired
    exact .inr (.inr ⟨left, right, paired, _, _, later⟩)

theorem afterQuote {quote : Quote} {body : Text} (clear : ∀ c ∈ body, c ≠ quote.closing)
    (matched : Matched depth (quote.opening :: (body ++ quote.closing :: s))) :
    (depth = 0 ∨ Pairs (.char '[') (.char ']') 0 body) ∧ Matched depth s := by
  obtain ⟨paired, parens, parens', counted⟩ := matched
  rw [scan_closed clear] at paired counted
  exact ⟨paired.1, paired.2, _, _, counted⟩

theorem not_unclosed {quote : Quote} {rest : Text} (missing : cut? quote.closing rest = none) :
    ¬Matched (depth + 1) (quote.opening :: rest) := by
  rintro ⟨-, parens, parens', counted⟩
  rw [scan_unclosed missing] at counted
  cases counted

theorem afterPlain (name : Text) (unquoted : name.Unquoted) (noBracket : .char '[' ∉ name)
    (matched : Matched 0 (name ++ s)) :
    Matched 0 s := by
  induction name with
  | nil => exact matched
  | cons c name ih =>
      simp only [List.mem_cons, not_or] at noBracket
      rcases matched.tail (unquoted c List.mem_cons_self) with ⟨same, -⟩ | ⟨-, less, none, -⟩ | ⟨-, -, later⟩
      · exact absurd same.symm noBracket.1
      · cases none
      · exact ih unquoted.tail noBracket.2 later

end Matched

end Text

namespace Lexeme

theorem closesAt_matched {depth : Nat} {s : Text} (matched : Text.Matched (depth + 1) s) :
    ∃ inner after, ClosesAt depth s inner after ∧ inner.Closed ∧ Text.Matched 0 after := by
  induction s using Span.scanWith.induct Quote.of? generalizing depth with
  | case1 =>
      obtain ⟨-, parens, parens', counted⟩ := matched
      simp [Span.scan, Span.scanWith, Text.countMarks] at counted
  | case2 c s noQuote ih =>
      rcases matched.tail noQuote with ⟨rfl, deeper⟩ | ⟨rfl, less, level, shallower⟩ | ⟨noLeft, noRight, level⟩
      · obtain ⟨inner, after, closes, closed, later⟩ := ih deeper
        exact ⟨_, after, ClosesAt.cons (by simpa using closes) (by simp), (Text.closed_plain noQuote).mpr closed, later⟩
      · obtain rfl := Nat.succ.inj level
        cases depth with
        | zero => exact ⟨[], s, ⟨rfl, fun more => by simp [cutBracket]⟩, .nil, shallower⟩
        | succ depth =>
            obtain ⟨inner, after, closes, closed, later⟩ := ih shallower
            exact ⟨_, after, ClosesAt.cons (by simpa using closes) (by simp),
              (Text.closed_plain noQuote).mpr closed, later⟩
      · obtain ⟨inner, after, closes, closed, later⟩ := ih level
        refine ⟨_, after, ClosesAt.cons (by simpa [noLeft, noRight] using closes) (by simp [noRight]), ?_, later⟩
        exact (Text.closed_plain noQuote).mpr closed
  | case3 c s quote opens missing =>
      obtain rfl := Quote.of?_eq_some opens
      exact absurd matched (Text.Matched.not_unclosed missing)
  | case4 c s quote opens body after found ih =>
      obtain rfl := Quote.of?_eq_some opens
      obtain rfl := Text.cut?_append found
      have clear := Text.cut?_before found
      obtain ⟨paired, behind⟩ := matched.afterQuote clear
      have pairs : Pairs (.char '[') (.char ']') 0 body := paired.resolve_left (Nat.succ_ne_zero depth)
      obtain ⟨inner, rest, ⟨rfl, cut⟩, closed, later⟩ := ih behind
      refine ⟨quote.opening :: (body ++ quote.closing :: inner), rest, ⟨by simp, fun more => ?_⟩, ?_, later⟩
      · have skipped := cutBracket_pairs (pairs_span pairs quote) depth (inner ++ .char ']' :: more)
        rw [Nat.add_zero, cut] at skipped
        simpa [Span.text] using skipped
      · exact (Text.closed_quoted clear).mpr closed

end Lexeme

end CommandScript
