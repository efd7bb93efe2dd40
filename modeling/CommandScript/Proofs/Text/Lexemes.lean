import CommandScript.Expr.Token

/-! The lexer's steps. What is read off the front of a text depends on how the text starts, and scanning goes on
with what follows it. -/

namespace CommandScript

theorem Text.cut?_word {word rest : Text} {mark : CodePoint} (others : ∀ c ∈ word, c ≠ mark) :
    cut? mark (word ++ mark :: rest) = some (word, rest) := by
  induction word with
  | nil => simp [cut?]
  | cons c word ih =>
      have inner := ih fun other member => others other (by simp [member])
      simp [cut?, others c (by simp), inner]

theorem Operator.ofPair?_none {c : CodePoint} (plain : ofChar? c = none) (next : CodePoint) :
    ofPair? c next = none := by
  unfold ofPair?
  split
  all_goals first | rfl | cases plain

theorem Operator.noPair {c : CodePoint} (plain : ofChar? c = none) (rest : Text) :
    rest.head?.bind (ofPair? c) = none := by
  cases rest with
  | nil => rfl
  | cons next more => exact ofPair?_none plain next

namespace Lexeme

theorem scan_white {c : CodePoint} (blank : Text.isBlank c = true) (rest : Text) : scan (c :: rest) = scan rest := by
  rw [scan, if_pos blank]

theorem scan_pair {first second : CodePoint} {op : Operator} (visible : Text.isBlank first = false)
    (pair : Operator.ofPair? first second = some op) (rest : Text) :
    scan (first :: second :: rest) = (scan rest).map (operator op [first, second] :: ·) := by
  rw [scan, if_neg (by simp [visible])]
  simp only [List.head?_cons, Option.bind_some, pair]
  rfl

theorem scan_mark {c : CodePoint} {op : Operator} (visible : Text.isBlank c = false) (noQuote : Quote.of? c = none)
    (noBracket : c ≠ '[') (found : Operator.ofChar? c = some op) {rest : Text}
    (alone : rest.head?.bind (Operator.ofPair? c) = none) :
    scan (c :: rest) = (scan rest).map (operator op [c] :: ·) := by
  rw [scan, if_neg (by simp [visible])]
  simp only [alone, noQuote, if_neg noBracket, found]

theorem scan_quoted {quote : Quote} {body : Text} (clear : ∀ c ∈ body, c ≠ quote.closing) (rest : Text) :
    scan (quote.opening :: (body ++ quote.closing :: rest)) = (scan rest).map (quoted body :: ·) := by
  have visible : Text.isBlank quote.opening = false := by cases quote <;> rfl
  have pair := @Operator.noPair quote.opening (by cases quote <;> rfl) (body ++ quote.closing :: rest)
  have cut : Text.cut? quote.closing (body ++ quote.closing :: rest) = some (body, rest) := Text.cut?_word clear
  rw [scan, if_neg (by simp [visible])]
  simp only [pair]
  split
  · rename_i other opens
    obtain rfl := Option.some.inj ((Quote.of?_opening quote).symm.trans opens)
    split
    · rename_i missing
      rw [cut] at missing
      cases missing
    · rename_i inside after found
      obtain ⟨rfl, rfl⟩ := Prod.mk.injEq .. ▸ Option.some.inj (cut.symm.trans found)
      rfl
  · rename_i noQuote
    rw [Quote.of?_opening] at noQuote
    cases noQuote

theorem scan_unclosed {quote : Quote} {rest : Text} (missing : Text.cut? quote.closing rest = none) :
    scan (quote.opening :: rest) = .error (.unclosedQuote quote) := by
  have visible : Text.isBlank quote.opening = false := by cases quote <;> rfl
  have pair := @Operator.noPair quote.opening (by cases quote <;> rfl) rest
  rw [scan, if_neg (by simp [visible])]
  simp only [pair]
  split
  · rename_i other opens
    obtain rfl := Option.some.inj ((Quote.of?_opening quote).symm.trans opens)
    split
    · rfl
    · rename_i inside after found
      rw [missing] at found
      cases found
  · rename_i noQuote
    rw [Quote.of?_opening] at noQuote
    cases noQuote

def scanInside (make : Text → Lexeme) (rest : Text) : Except Malformed (List Lexeme) :=
  if Text.trim (cutBracket 0 rest).1 = [] then .error (.emptyBrackets (.char '[' :: rest))
  else (scan (cutBracket 0 rest).2).map (make (cutBracket 0 rest).1 :: ·)

theorem scan_bracket (rest : Text) : scan (.char '[' :: rest) = scanInside bracket rest := by
  have pair := @Operator.noPair '[' rfl rest
  have noQuote : Quote.of? '[' = none := rfl
  rw [scan, if_neg (by decide)]
  simp only [pair, noQuote, if_true]
  rfl

theorem cutTerm_plain {s rest : Text} (plain : ∀ c ∈ s, endsTerm c = false)
    (stops : ∀ older last, cutTerm older last rest = ([], rest)) (older last : CodePoint) :
    cutTerm older last (s ++ rest) = (s, rest) := by
  induction s generalizing older last with
  | nil => exact stops older last
  | cons c s ih =>
      have inner := ih (fun other member => plain other (List.mem_cons_of_mem c member)) last c
      simp [cutTerm, plain c List.mem_cons_self, inner]

structure StartsTerm (c : CodePoint) : Prop where
  visible : Text.isBlank c = false
  noQuote : Quote.of? c = none
  noBracket : c ≠ '['
  noOperator : Operator.ofChar? c = none

namespace StartsTerm

variable {c : CodePoint} (starts : StartsTerm c) {rest name after : Text}

include starts

theorem scan (cut : Lexeme.cutTerm ' ' c rest = (name, after)) (noIndex : ∀ more, after ≠ .char '[' :: more) :
    scan (c :: rest) = (scan after).map (term (Text.trim (c :: name)) none :: ·) := by
  obtain ⟨visible, noQuote, noBracket, noOperator⟩ := starts
  have pair := Operator.noPair noOperator rest
  rw [Lexeme.scan, if_neg (by simp [visible])]
  simp only [pair, noQuote, if_neg noBracket, noOperator, cut]
  split
  · rename_i more follows
    rw [cut] at follows
    exact absurd follows (noIndex more)
  · rw [cut]

theorem scan_index (cut : Lexeme.cutTerm ' ' c rest = (name, .char '[' :: after)) :
    Lexeme.scan (c :: rest) = scanInside (fun inner => term (Text.trim (c :: name)) (some inner)) after := by
  obtain ⟨visible, noQuote, noBracket, noOperator⟩ := starts
  have pair := Operator.noPair noOperator rest
  rw [Lexeme.scan, if_neg (by simp [visible])]
  simp only [pair, noQuote, if_neg noBracket, noOperator, cut]
  split
  · rename_i more follows
    rw [cut] at follows
    obtain ⟨-, rfl⟩ := List.cons.inj follows
    rfl
  · rename_i noIndex
    exact absurd (congrArg Prod.snd cut) (noIndex after)

end StartsTerm

end Lexeme

end CommandScript
