import CommandScript.Proofs.Integers.Formula
import CommandScript.Proofs.Text.Lexemes
import CommandScript.Proofs.Text.Unquoted

/-! The text of a formula is cut into the lexemes of its tokens. A term runs to the next operator and takes
the blank before it along, so the scanner is followed with what stands after a formula as a parameter. -/

namespace CommandScript

theorem ascii_forall {p : CodePoint → Prop} (all : ∀ n : Fin 128, p (CodePoint.ofNat n)) {c : CodePoint}
    (ascii : c.toNat < 128) : p c := by
  have here := all ⟨c.toNat, ascii⟩
  rwa [CodePoint.ofNat_toNat] at here

theorem isWordMark_ascii {c : CodePoint} (word : isWordMark c) : c.toNat < 128 := by
  unfold isWordMark CodePoint.isAlphanum CodePoint.isAlpha CodePoint.isUpper CodePoint.isLower CodePoint.isDigit at word
  simp only [Bool.or_eq_true, Bool.and_eq_true, decide_eq_true_eq] at word
  rcases word with ((⟨-, upper⟩ | ⟨-, upper⟩) | ⟨-, upper⟩) | rfl
  · exact Nat.lt_of_le_of_lt upper (by decide)
  · exact Nat.lt_of_le_of_lt upper (by decide)
  · exact Nat.lt_of_le_of_lt upper (by decide)
  · decide

theorem isWordMark_neutral {c : CodePoint} (word : isWordMark c) :
    Text.isBlank c = false ∧ Operator.ofChar? c = none ∧ Quote.of? c = none ∧ c ≠ '[' :=
  ascii_forall (p := fun c => isWordMark c →
    Text.isBlank c = false ∧ Operator.ofChar? c = none ∧ Quote.of? c = none ∧ c ≠ '[')
    (by decide) (isWordMark_ascii word) word

theorem isWordMark_starts {c : CodePoint} (word : isWordMark c) : Lexeme.StartsTerm c := by
  obtain ⟨visible, noOperator, noQuote, noBracket⟩ := isWordMark_neutral word
  exact ⟨visible, noQuote, noBracket, noOperator⟩

theorem isWordMark_endsTerm {c : CodePoint} (word : isWordMark c) : Lexeme.endsTerm c = false := by
  obtain ⟨-, noOperator, noQuote, noBracket⟩ := isWordMark_neutral word
  simp [Lexeme.endsTerm, noOperator, Quote.isOpening, noQuote, noBracket]

def isFormulaMark (c : CodePoint) : Bool := isWordMark c || (" +-*/=!<>&|~^()" : Text).contains c

theorem isFormulaMark_ascii {c : CodePoint} (mark : isFormulaMark c) : c.toNat < 128 := by
  rcases Bool.or_eq_true_iff.mp mark with word | sign
  · exact isWordMark_ascii word
  · exact (show ∀ c ∈ (" +-*/=!<>&|~^()" : Text), c.toNat < 128 by decide) c (by simpa using sign)

theorem isFormulaMark_plain {c : CodePoint} (mark : isFormulaMark c) :
    Quote.of? c = none ∧ Text.endsStatement c = false ∧ c ≠ '#' ∧ c ≠ '[' ∧ c ≠ ']' :=
  ascii_forall (p := fun c => isFormulaMark c →
    Quote.of? c = none ∧ Text.endsStatement c = false ∧ c ≠ '#' ∧ c ≠ '[' ∧ c ≠ ']')
    (by decide) (isFormulaMark_ascii mark) mark

theorem BinaryOp.text_marks (op : BinaryOp) : op.text.all isFormulaMark := by
  cases op with
  | arithmetic op => cases op <;> decide
  | comparison op => cases op <;> decide
  | connective op => cases op <;> decide

theorem Identifier.mark {identifier : Identifier} {c : CodePoint} (member : c ∈ identifier.text) : isWordMark c :=
  List.all_eq_true.mp identifier.marks c member

theorem Numeral.mark {numeral : Numeral} {c : CodePoint} (member : c ∈ numeral.digits) : isWordMark c := by
  simp [isWordMark, CodePoint.isAlphanum, Numeral.isDigit member]

theorem Identifier.filled (identifier : Identifier) : identifier.text ≠ [] := by
  intro missing
  have starts := identifier.starts
  simp [missing] at starts

namespace Formula

variable {bound : Option Level}

theorem text_marks (e : Formula bound) : ∀ c ∈ e.text, isFormulaMark c := by
  induction e with
  | literal numeral =>
      intro c member
      simp [isFormulaMark, numeral.mark member]
  | name identifier =>
      intro c member
      simp [isFormulaMark, identifier.mark member]
  | group inner ih =>
      intro c member
      simp only [text, List.mem_cons, List.mem_append] at member
      rcases member with rfl | rfl | inside | closing
      · decide
      · decide
      · exact ih c inside
      · exact (show ∀ c ∈ (" )" : Text), isFormulaMark c by decide) c closing
  | signed sign operand ih =>
      intro c member
      simp only [text, List.mem_cons, List.mem_append] at member
      rcases member with inside | rfl | inside
      · exact List.all_eq_true.mp sign.op.text_marks c inside
      · decide
      · exact ih c inside
  | plain inner ih => exact ih
  | binary op left right leftIh rightIh =>
      intro c member
      simp only [text, List.mem_cons, List.mem_append] at member
      rcases member with inside | rfl | inside | rfl | inside
      · exact leftIh c inside
      · decide
      · exact List.all_eq_true.mp op.text_marks c inside
      · decide
      · exact rightIh c inside

def lexemes {bound : Option Level} : Formula bound → List Lexeme
  | literal numeral => [.term numeral.digits none]
  | name identifier => [.term identifier.text none]
  | group inner => .operator .openParen "(" :: (inner.lexemes ++ [.operator .closeParen ")"])
  | signed sign operand => .operator (.binary sign.op) sign.op.text :: operand.lexemes
  | plain inner => inner.lexemes
  | binary op left right => left.lexemes ++ .operator (.binary op) op.text :: right.lexemes

end Formula

/-- Nothing follows, or a blank and an operator. -/
def Text.EndsWord (rest : Text) : Prop :=
  rest = [] ∨ ∃ c more, rest = .char ' ' :: c :: more ∧ (Operator.ofChar? c).isSome

theorem Text.EndsWord.noBracket {rest : Text} (ends : rest.EndsWord) (after : Text) :
    rest.drop 1 ≠ .char '[' :: after := by
  rcases ends with rfl | ⟨c, more, rfl, operator⟩
  · simp
  · intro same
    simp only [List.drop_succ_cons, List.drop_zero, List.cons.injEq] at same
    rw [same.1] at operator
    cases operator

namespace Lexeme

theorem cutTerm_word {older last : CodePoint} {word rest : Text} (marks : ∀ c ∈ word, isWordMark c)
    (ends : rest.EndsWord) : cutTerm older last (word ++ rest) = (word ++ rest.take 1, rest.drop 1) := by
  induction word generalizing older last with
  | nil =>
      rcases ends with rfl | ⟨c, more, rfl, operator⟩
      · rfl
      · have stops : endsTerm c = true := by simp [endsTerm, operator]
        have noSign : isExponentSign last ' ' c more = false := by simp [isExponentSign]
        have blank : endsTerm ' ' = false := by decide
        simp [cutTerm, blank, noSign, stops]
  | cons c word ih =>
      have plain := isWordMark_endsTerm (marks c (by simp))
      have inner := @ih last c fun other member => marks other (by simp [member])
      simp [cutTerm, plain, inner]

theorem scan_blank (rest : Text) : scan (.char ' ' :: rest) = scan rest := scan_white (by decide) rest

theorem scan_drop {rest : Text} (ends : rest.EndsWord) : scan (rest.drop 1) = scan rest := by
  rcases ends with rfl | ⟨c, more, rfl, -⟩
  · rfl
  · exact (scan_blank _).symm

end Lexeme

theorem Text.trim_visible {s : Text} (first : ∀ c ∈ s.head?, isBlank c = false)
    (last : ∀ c ∈ s.getLast?, isBlank c = false) : trim s = s := by
  have left : trimLeft s = s := by
    cases s with
    | nil => rfl
    | cons c rest => simp [trimLeft, first c (by simp)]
  have right : s.reverse.dropWhile isBlank = s.reverse := by
    cases backward : s.reverse with
    | nil => rfl
    | cons c rest =>
        have member : c ∈ s.getLast? := by simp [← List.head?_reverse, backward]
        simp [last c member]
  rw [trim, left, trimRight, right, List.reverse_reverse]

theorem Text.trim_blank {c : CodePoint} (visible : isBlank c = false) (more : Text) :
    trim (c :: more ++ ([.char ' '] : Text)) = trim (c :: more) := by
  have white : isBlank ' ' = true := by decide
  have left : ∀ s : Text, trimLeft (c :: s) = c :: s := fun s => by simp [trimLeft, visible]
  rw [trim, trim, List.cons_append, left, left, trimRight, trimRight, ← List.cons_append, List.reverse_append]
  simp [white]

theorem Text.trim_word {word rest : Text} (filled : word ≠ []) (marks : ∀ c ∈ word, isWordMark c)
    (ends : rest.EndsWord) : trim (word ++ rest.take 1) = word := by
  have visible : ∀ c ∈ word, isBlank c = false := fun c member => (isWordMark_neutral (marks c member)).1
  have alone : trim word = word :=
    trim_visible (fun c member => visible c (List.mem_of_mem_head? member))
      (fun c member => visible c (List.mem_of_mem_getLast? member))
  obtain ⟨first, more, rfl⟩ := List.exists_cons_of_ne_nil filled
  rcases ends with rfl | ⟨c, after, rfl, -⟩
  · simpa using alone
  · exact (trim_blank (visible first (by simp)) more).trans alone

namespace Lexeme

theorem scan_word {word rest : Text} (filled : word ≠ []) (marks : ∀ c ∈ word, isWordMark c)
    (ends : rest.EndsWord) : scan (word ++ rest) = (scan rest).map (term word none :: ·) := by
  obtain ⟨c, more, rfl⟩ := List.exists_cons_of_ne_nil filled
  have cut := @cutTerm_word ' ' c more rest (fun other member => marks other (by simp [member])) ends
  have trimmed := Text.trim_word filled marks ends
  rw [List.cons_append, (isWordMark_starts (marks c (by simp))).scan cut ends.noBracket, scan_drop ends,
    ← List.cons_append,
    trimmed]

theorem scan_binary (op : BinaryOp) (rest : Text) :
    scan (op.text ++ .char ' ' :: rest) = (scan rest).map (operator (.binary op) op.text :: ·) := by
  rw [← scan_blank rest]
  cases op with
  | arithmetic op =>
      cases op <;> exact scan_mark (by decide) (by decide) (by decide) rfl rfl
  | comparison op =>
      cases op
      case less => exact scan_mark (by decide) (by decide) (by decide) rfl rfl
      case greater => exact scan_mark (by decide) (by decide) (by decide) rfl rfl
      all_goals exact scan_pair (by decide) rfl _
  | connective op => cases op <;> exact scan_pair (by decide) rfl _

theorem scan_open (rest : Text) :
    scan (.char '(' :: .char ' ' :: rest) = (scan rest).map (operator .openParen "(" :: ·) := by
  rw [← scan_blank rest]
  exact scan_mark (by decide) (by decide) (by decide) rfl rfl

theorem scan_close (rest : Text) : scan (.char ')' :: rest) = (scan rest).map (operator .closeParen ")" :: ·) := by
  have alone : rest.head?.bind (Operator.ofPair? ')') = none := by
    cases rest <;> rfl
  exact scan_mark (by decide) (by decide) (by decide) rfl alone

end Lexeme

theorem BinaryOp.text_operator (op : BinaryOp) :
    ∃ c more, op.text = c :: more ∧ (Operator.ofChar? c).isSome := by
  cases op with
  | arithmetic op => cases op <;> exact ⟨_, _, rfl, rfl⟩
  | comparison op => cases op <;> exact ⟨_, _, rfl, rfl⟩
  | connective op => cases op <;> exact ⟨_, _, rfl, rfl⟩

theorem BinaryOp.text_endsWord (op : BinaryOp) (rest : Text) : Text.EndsWord (.char ' ' :: (op.text ++ rest)) := by
  obtain ⟨c, more, spelled, operator⟩ := op.text_operator
  exact .inr ⟨c, more ++ rest, by simp [spelled], operator⟩

namespace Text

def Uncounted (c : CodePoint) : Prop := c ≠ '(' ∧ c ≠ ')' ∧ c ≠ '[' ∧ c ≠ ']'

instance (c : CodePoint) : Decidable (Uncounted c) := inferInstanceAs (Decidable (_ ∧ _ ∧ _ ∧ _))

theorem uncounted_word {c : CodePoint} (word : isWordMark c) : Uncounted c := by
  refine ⟨?_, ?_, ?_, ?_⟩
  all_goals
    rintro rfl
    exact absurd word (by decide)

theorem uncounted_binary (op : BinaryOp) : ∀ c ∈ op.text ++ ([.char ' '] : Text), Uncounted c := by
  cases op with
  | arithmetic op => cases op <;> decide
  | comparison op => cases op <;> decide
  | connective op => cases op <;> decide

theorem countMarks_skip {s : Text} (uncounted : ∀ c ∈ s, Uncounted c) {brackets : Nat} (parens : Nat) (rest : Text) :
    countMarks parens brackets ((s ++ rest).map .plain) = countMarks parens brackets (rest.map .plain) := by
  induction s with
  | nil => rfl
  | cons c s ih =>
      obtain ⟨noOpen, noClose, noLeft, noRight⟩ := uncounted c (by simp)
      have inner := ih fun other member => uncounted other (by simp [member])
      simp only [List.cons_append, List.map_cons, countMarks, if_neg noOpen, if_neg noClose, if_neg noLeft,
        if_neg noRight]
      exact inner

theorem countMarks_uncounted {s : Text} (uncounted : ∀ c ∈ s, Uncounted c) :
    countMarks 0 0 (s.map .plain) = .ok (0, 0) := by
  have skipped := @countMarks_skip s uncounted 0 0 []
  rwa [List.append_nil] at skipped

end Text

namespace Formula

variable {bound : Option Level}

/-- The text of a formula is scanned into the lexemes of its tokens, whatever follows it. -/
theorem scan_text (e : Formula bound) {rest : Text} (ends : rest.EndsWord) :
    Lexeme.scan (e.text ++ rest) = (Lexeme.scan rest).map (e.lexemes ++ ·) := by
  induction e generalizing rest with
  | literal numeral => exact Lexeme.scan_word numeral.digits_filled (fun c => numeral.mark) ends
  | name identifier => exact Lexeme.scan_word identifier.filled (fun c => identifier.mark) ends
  | group inner ih =>
      have closing : Text.EndsWord (.char ' ' :: .char ')' :: rest) := .inr ⟨')', rest, rfl, rfl⟩
      have whole : (group inner).text ++ rest =
        .char '(' :: .char ' ' :: (inner.text ++ .char ' ' :: .char ')' :: rest) := by simp [text]
      rw [whole, Lexeme.scan_open, ih closing, Lexeme.scan_blank, Lexeme.scan_close]
      cases Lexeme.scan rest <;> simp [Except.map, lexemes]
  | signed sign operand ih =>
      have whole : (signed sign operand).text ++ rest = sign.op.text ++ .char ' ' :: (operand.text ++ rest) := by
        simp [text]
      rw [whole, Lexeme.scan_binary, ih ends]
      cases Lexeme.scan rest <;> simp [Except.map, lexemes]
  | plain inner ih => exact ih ends
  | binary op left right leftIh rightIh =>
      have whole : (binary op left right).text ++ rest =
          left.text ++ .char ' ' :: (op.text ++ (.char ' ' :: (right.text ++ rest))) := by simp [text]
      rw [whole, leftIh (op.text_endsWord _), Lexeme.scan_blank, Lexeme.scan_binary, rightIh ends]
      cases Lexeme.scan rest <;> simp [Except.map, lexemes]

theorem countMarks_text (e : Formula bound) (parens : Nat) (rest : Text) :
    Text.countMarks parens 0 ((e.text ++ rest).map .plain) = Text.countMarks parens 0 (rest.map .plain) := by
  induction e generalizing parens rest with
  | literal numeral => exact Text.countMarks_skip (fun c member => Text.uncounted_word (numeral.mark member)) _ _
  | name identifier =>
      exact Text.countMarks_skip (fun c member => Text.uncounted_word (identifier.mark member)) _ _
  | group inner ih =>
      have whole : (group inner).text ++ rest =
        .char '(' :: .char ' ' :: (inner.text ++ .char ' ' :: .char ')' :: rest) := by simp [text]
      have opening : ∀ more : Text, Text.countMarks parens 0 ((.char '(' :: .char ' ' :: more).map .plain) =
          Text.countMarks (parens + 1) 0 (more.map .plain) := by
        intro more
        simp [Text.countMarks]
      rw [whole, opening, ih]
      simp [Text.countMarks]
  | signed sign operand ih =>
      have whole : (signed sign operand).text ++ rest = (sign.op.text ++ ([.char ' '] : Text)) ++
          (operand.text ++ rest) := by
        simp [text]
      rw [whole, Text.countMarks_skip (Text.uncounted_binary sign.op), ih]
  | plain inner ih => exact ih parens rest
  | binary op left right leftIh rightIh =>
      have whole : (binary op left right).text ++ rest =
          left.text ++ (([.char ' '] : Text) ++ ((op.text ++ ([.char ' '] : Text)) ++ (right.text ++ rest))) := by
            simp [text]
      rw [whole, leftIh, Text.countMarks_skip (by decide), Text.countMarks_skip (Text.uncounted_binary op), rightIh]

theorem text_unquoted (e : Formula bound) : e.text.Unquoted := fun c member =>
  (isFormulaMark_plain (e.text_marks c member)).1

theorem text_balanced (e : Formula bound) : Text.checkBalance e.text = .ok () := by
  apply Text.checkBalance_unquoted e.text_unquoted
  have counted := e.countMarks_text 0 []
  rw [List.append_nil] at counted
  rw [counted]
  rfl

theorem text_scanned (e : Formula bound) : Lexeme.scan e.text = .ok e.lexemes := by
  have scanned := e.scan_text (.inl rfl)
  rw [List.append_nil] at scanned
  rw [scanned, Lexeme.scan]
  simp [Except.map]

end Formula

end CommandScript
