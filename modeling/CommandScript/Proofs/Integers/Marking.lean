import CommandScript.Proofs.Integers.Scanning

/-! Signs before operands. A run of signs becomes one sign; a sum or a difference takes in the sign of its
right operand, and any other sign becomes a mark on the operand it stands before. -/

namespace CommandScript

namespace Sign

def join : Sign → Option Sign → Sign
  | sign, none => sign
  | sign, some other => if sign = other then plus else minus

def lexeme (sign : Sign) : Lexeme := .operator (.binary sign.op) sign.op.text

def leading (front : Option Sign) : List Lexeme := front.toList.map lexeme

end Sign

def BinaryOp.lexeme (op : BinaryOp) : Lexeme := .operator (.binary op) op.text

/-- An operator before a sign: the operator that is left, and the sign if it is not taken in. -/
def BinaryOp.absorb : BinaryOp → Option Sign → BinaryOp × Option Sign
  | .arithmetic .add, front => ((Sign.plus.join front).op, none)
  | .arithmetic .sub, front => ((Sign.minus.join front).op, none)
  | op, front => (op, front)

namespace Lexeme

def isSign (lexeme : Lexeme) : Bool := lexeme.operator?.any Operator.isSign

theorem collapseSigns_other {lexeme : Lexeme} (noSign : lexeme.isSign = false) (rest : List Lexeme) :
    collapseSigns (lexeme :: rest) = lexeme :: collapseSigns rest := by
  cases lexeme with
  | operator first spelled =>
      have other : first.isSign = false := noSign
      rcases collapsed : collapseSigns rest with _ | ⟨_ | _ | _ | _, more⟩ <;> simp [collapseSigns, collapsed, other]
  | quoted | term | bracket => simp [collapseSigns]

theorem collapseSigns_sign (sign : Sign) {front : Option Sign} {rest more : List Lexeme}
    (collapsed : collapseSigns rest = Sign.leading front ++ more) (noSign : ∀ next ∈ more.head?, next.isSign = false) :
    collapseSigns (sign.lexeme :: rest) = (sign.join front).lexeme :: more := by
  cases front with
  | some other => cases sign <;> cases other <;> simp [collapseSigns, collapsed, Sign.lexeme, Sign.leading] <;> rfl
  | none =>
      have same : collapseSigns rest = more := collapsed
      rcases more with _ | ⟨_ | _ | _ | _, more⟩
      case cons.operator second spelling =>
        have other : second.isSign = false := noSign _ rfl
        simp [collapseSigns, same, Sign.lexeme, Sign.join, other]
      all_goals simp [collapseSigns, same, Sign.lexeme, Sign.join]

end Lexeme

/-- An operator takes in the sign that is left of what follows it, if it is a sign itself. -/
theorem BinaryOp.collapseSigns_absorb (op : BinaryOp) {front : Option Sign} {rest more : List Lexeme}
    (collapsed : Lexeme.collapseSigns rest = Sign.leading front ++ more)
    (noSign : ∀ next ∈ more.head?, next.isSign = false) :
    Lexeme.collapseSigns (op.lexeme :: rest) =
      (op.absorb front).1.lexeme :: (Sign.leading (op.absorb front).2 ++ more) := by
  have kept (other : op.lexeme.isSign = false) :
      Lexeme.collapseSigns (op.lexeme :: rest) = op.lexeme :: (Sign.leading front ++ more) := by
    rw [Lexeme.collapseSigns_other other, collapsed]
  cases op with
  | arithmetic op =>
      cases op with
      | add => exact Lexeme.collapseSigns_sign .plus collapsed noSign
      | sub => exact Lexeme.collapseSigns_sign .minus collapsed noSign
      | mul => exact kept rfl
      | div => exact kept rfl
  | comparison op => exact kept (by cases op <;> rfl)
  | connective op => exact kept (by cases op <;> rfl)

namespace Formula

variable {bound : Option Level}

/-- The sign that is left of the run of signs before the first operand. -/
def front {bound : Option Level} : Formula bound → Option Sign
  | literal _ | name _ | group _ => none
  | signed sign operand => some (sign.join operand.front)
  | plain inner => inner.front
  | binary _ left _ => left.front

/-- The lexemes after the signs have been joined, without the sign before the first operand. -/
def core {bound : Option Level} : Formula bound → List Lexeme
  | literal numeral => [.term numeral.digits none]
  | name identifier => [.term identifier.text none]
  | group inner =>
    .operator .openParen "(" :: (Sign.leading inner.front ++ inner.core ++ [.operator .closeParen ")"])
  | signed _ operand => operand.core
  | plain inner => inner.core
  | binary op left right =>
    let (op, front) := op.absorb right.front
    left.core ++ op.lexeme :: (Sign.leading front ++ right.core)

def first {bound : Option Level} : Formula bound → Lexeme
  | literal numeral => .term numeral.digits none
  | name identifier => .term identifier.text none
  | group _ => .operator .openParen "("
  | signed _ operand => operand.first
  | plain inner => inner.first
  | binary _ left _ => left.first

def last {bound : Option Level} : Formula bound → Lexeme
  | literal numeral => .term numeral.digits none
  | name identifier => .term identifier.text none
  | group _ => .operator .closeParen ")"
  | signed _ operand => operand.last
  | plain inner => inner.last
  | binary _ _ right => right.last

theorem first_cases (e : Formula bound) : (∃ text, e.first = .term text none) ∨ e.first = .operator .openParen "(" := by
  induction e with
  | literal numeral => exact .inl ⟨_, rfl⟩
  | name identifier => exact .inl ⟨_, rfl⟩
  | group inner ih => exact .inr rfl
  | signed sign operand ih => exact ih
  | plain inner ih => exact ih
  | binary op left right leftIh rightIh => exact leftIh

theorem last_cases (e : Formula bound) : (∃ text, e.last = .term text none) ∨ e.last = .operator .closeParen ")" := by
  induction e with
  | literal numeral => exact .inl ⟨_, rfl⟩
  | name identifier => exact .inl ⟨_, rfl⟩
  | group inner ih => exact .inr rfl
  | signed sign operand ih => exact ih
  | plain inner ih => exact ih
  | binary op left right leftIh rightIh => exact rightIh

theorem core_head (e : Formula bound) (rest : List Lexeme) : (e.core ++ rest).head? = some e.first := by
  induction e generalizing rest with
  | literal numeral => rfl
  | name identifier => rfl
  | group inner ih => rfl
  | signed sign operand ih => exact ih rest
  | plain inner ih => exact ih rest
  | binary op left right leftIh rightIh =>
      simp only [core, List.append_assoc]
      exact leftIh _

theorem core_noSign (e : Formula bound) (rest : List Lexeme) :
    ∀ next ∈ (e.core ++ rest).head?, next.isSign = false := by
  intro next member
  rw [core_head, Option.mem_some_iff] at member
  subst member
  rcases e.first_cases with ⟨text, same⟩ | same <;> rw [same] <;> rfl

theorem collapseSigns_lexemes (e : Formula bound) (rest : List Lexeme) :
    Lexeme.collapseSigns (e.lexemes ++ rest) =
      Sign.leading e.front ++ (e.core ++ Lexeme.collapseSigns rest) := by
  induction e generalizing rest with
  | literal numeral => exact Lexeme.collapseSigns_other rfl rest
  | name identifier => exact Lexeme.collapseSigns_other rfl rest
  | group inner ih =>
      have whole : (group inner).lexemes ++ rest =
          .operator .openParen "(" :: (inner.lexemes ++ .operator .closeParen ")" :: rest) := by simp [lexemes]
      rw [whole, Lexeme.collapseSigns_other rfl, ih, Lexeme.collapseSigns_other rfl]
      simp [core, front, Sign.leading]
  | signed sign operand ih => exact Lexeme.collapseSigns_sign sign (ih rest) (operand.core_noSign _)
  | plain inner ih => exact ih rest
  | binary op left right leftIh rightIh =>
      have whole : (binary op left right).lexemes ++ rest = left.lexemes ++ op.lexeme :: (right.lexemes ++ rest) := by
        simp [lexemes, BinaryOp.lexeme]
      have joined : Lexeme.collapseSigns (op.lexeme :: (right.lexemes ++ rest)) =
          (op.absorb right.front).1.lexeme ::
            (Sign.leading (op.absorb right.front).2 ++ (right.core ++ Lexeme.collapseSigns rest)) :=
        op.collapseSigns_absorb (rightIh rest) (right.core_noSign _)
      rw [whole, leftIh, joined]
      simp [core, front]

def tokens (negated : Bool) {bound : Option Level} : Formula bound → List Token
  | literal numeral => [{ lexeme := .term numeral.digits none, negated }]
  | name identifier => [{ lexeme := .term identifier.text none, negated }]
  | group inner =>
    { lexeme := .operator .openParen "(", negated } ::
      (inner.tokens (inner.front = some .minus) ++ [{ lexeme := .operator .closeParen ")" }])
  | signed _ operand => operand.tokens negated
  | plain inner => inner.tokens negated
  | binary op left right =>
    let (op, front) := op.absorb right.front
    left.tokens negated ++ { lexeme := op.lexeme } :: right.tokens (front = some .minus)

end Formula

namespace Token

theorem mark_leading {previous : Option Lexeme} (start : atOperandStart previous) (front : Option Sign)
    (rest : List Lexeme) :
    mark previous none (Sign.leading front ++ rest) =
      mark previous (front.map fun sign => Marks.add none (.binary sign.op)) rest := by
  cases front with
  | none => rfl
  | some sign => cases sign <;> simp [Sign.leading, Sign.lexeme, Sign.op, mark, Lexeme.operator?, isMark, start,
      Option.filter, Operator.isSign, Operator.plus, Operator.minus]

theorem mark_operand {previous : Option Lexeme} {marks : Option Marks} {lexeme : Lexeme}
    (opens : (∃ text, lexeme = .term text none) ∨ lexeme = .operator .openParen "(")
    (notInverted : marks.any (·.inverted) = false) (rest : List Lexeme) :
    mark previous marks (lexeme :: rest) =
      (mark (some lexeme) none rest).map ({ lexeme, negated := marks.any (·.negated) } :: ·) := by
  rcases opens with ⟨text, rfl⟩ | rfl
  · cases marks with
    | none => rfl
    | some found =>
        have plain : found.inverted = false := notInverted
        simp [mark, Lexeme.operator?, Lexeme.isOperator, Lexeme.isValue, plain]
  · cases marks with
    | none =>
        simp [mark, Option.filter, Lexeme.operator?, isMark, Operator.isSign, Operator.plus, Operator.minus,
          Lexeme.isOperator]
    | some found =>
        have plain : found.inverted = false := notInverted
        simp [mark, Option.filter, Lexeme.operator?, isMark, Operator.isSign, Operator.plus, Operator.minus,
          Lexeme.isOperator, plain]

theorem mark_after {previous : Lexeme} (ended : atOperandStart (some previous) = false) {op : Operator}
    (noInversion : op ≠ .not) (spelling : Text) (rest : List Lexeme) :
    mark (some previous) none (.operator op spelling :: rest) =
      (mark (some (.operator op spelling)) none rest).map ({ lexeme := .operator op spelling } :: ·) := by
  simp [mark, ended, Option.filter, Lexeme.operator?, Lexeme.isOperator, noInversion]

theorem checkPairs_cons {token : Token} {rest : List Token}
    (fits : ∀ next ∈ rest.head?, clash token.lexeme next.lexeme = false) (checked : checkPairs rest = .ok ()) :
    checkPairs (token :: rest) = .ok () := by
  cases rest with
  | nil => rfl
  | cons next more => simpa [checkPairs, fits next rfl] using checked

end Token

namespace Formula

variable {bound : Option Level}

theorem last_ended (e : Formula bound) : Token.atOperandStart (some e.last) = false := by
  rcases e.last_cases with ⟨text, same⟩ | same <;> rw [same] <;> rfl

theorem marks_front (front : Option Sign) :
    (front.map fun sign => Token.Marks.add none (.binary sign.op)).any (·.negated) = (front = some .minus : Bool) ∧
      (front.map fun sign => Token.Marks.add none (.binary sign.op)).any (·.inverted) = false := by
  cases front with
  | none => exact ⟨rfl, rfl⟩
  | some sign => cases sign <;> exact ⟨rfl, rfl⟩

theorem mark_core (e : Formula bound) {previous : Option Lexeme} {marks : Option Token.Marks}
    (start : Token.atOperandStart previous) (notInverted : marks.any (·.inverted) = false) (rest : List Lexeme) :
    Token.mark previous marks (e.core ++ rest) =
      (Token.mark (some e.last) none rest).map (e.tokens (marks.any (·.negated)) ++ ·) := by
  induction e generalizing previous marks rest with
  | literal numeral => exact Token.mark_operand (.inl ⟨_, rfl⟩) notInverted rest
  | name identifier => exact Token.mark_operand (.inl ⟨_, rfl⟩) notInverted rest
  | group inner ih =>
      have whole : (group inner).core ++ rest = .operator .openParen "(" ::
          (Sign.leading inner.front ++ (inner.core ++ .operator .closeParen ")" :: rest)) := by simp [core]
      obtain ⟨negated, plain⟩ := marks_front inner.front
      rw [whole, Token.mark_operand (.inr rfl) notInverted, Token.mark_leading rfl, ih rfl plain, negated,
        Token.mark_after inner.last_ended (by decide)]
      simp only [last]
      cases Token.mark (some (.operator .closeParen ")")) none rest <;> simp [Except.map, tokens]
  | signed sign operand ih => exact ih start notInverted rest
  | plain inner ih => exact ih start notInverted rest
  | binary op left right leftIh rightIh =>
      generalize absorbed : op.absorb right.front = after
      obtain ⟨op', front'⟩ := after
      have whole : (binary op left right).core ++ rest =
          left.core ++ op'.lexeme :: (Sign.leading front' ++ (right.core ++ rest)) := by simp [core, absorbed]
      obtain ⟨negated, plain⟩ := marks_front front'
      rw [whole, leftIh start notInverted, BinaryOp.lexeme, Token.mark_after left.last_ended (by simp),
        Token.mark_leading rfl, rightIh rfl plain, negated]
      simp only [last]
      cases Token.mark (some right.last) none rest <;> simp [Except.map, tokens, absorbed, BinaryOp.lexeme]

theorem tokens_head (e : Formula bound) (negated : Bool) (rest : List Token) :
    (e.tokens negated ++ rest).head?.map (·.lexeme) = some e.first := by
  induction e generalizing negated rest with
  | literal numeral => rfl
  | name identifier => rfl
  | group inner ih => rfl
  | signed sign operand ih => exact ih negated rest
  | plain inner ih => exact ih negated rest
  | binary op left right leftIh rightIh =>
      simp only [tokens, List.append_assoc]
      exact leftIh negated _

theorem tokens_last (e : Formula bound) (negated : Bool) :
    (e.tokens negated).getLast?.map (·.lexeme) = some e.last := by
  induction e generalizing negated with
  | literal numeral => rfl
  | name identifier => rfl
  | group inner ih => simp [tokens, last, List.getLast?_cons]
  | signed sign operand ih => exact ih negated
  | plain inner ih => exact ih negated
  | binary op left right leftIh rightIh =>
      have inside := rightIh ((op.absorb right.front).2 = some .minus)
      obtain ⟨token, found, same⟩ := Option.map_eq_some_iff.mp inside
      simp [tokens, last, List.getLast?_append, List.getLast?_cons, found, same]

/-- An operator that a word and a parenthesis may follow may stand before a formula. -/
theorem head_fits (e : Formula bound) {left : Lexeme} (word : ∀ text, Token.clash left (.term text none) = false)
    (paren : Token.clash left (.operator .openParen "(") = false) (negated : Bool) (rest : List Token) :
    ∀ next ∈ (e.tokens negated ++ rest).head?, Token.clash left next.lexeme = false := by
  intro next member
  have first : next.lexeme = e.first := by
    have head := e.tokens_head negated rest
    rw [Option.mem_def.mp member] at head
    exact Option.some.inj head
  rw [first]
  rcases e.first_cases with ⟨text, same⟩ | same <;> rw [same]
  · exact word text
  · exact paren

theorem last_fits (e : Formula bound) {right : Lexeme} (word : ∀ text, Token.clash (.term text none) right = false)
    (paren : Token.clash (.operator .closeParen ")") right = false) : Token.clash e.last right = false := by
  rcases e.last_cases with ⟨text, same⟩ | same <;> rw [same]
  · exact word text
  · exact paren

theorem checkPairs_tokens (e : Formula bound) (negated : Bool) {rest : List Token}
    (fits : ∀ next ∈ rest.head?, Token.clash e.last next.lexeme = false)
    (checked : Token.checkPairs rest = .ok ()) : Token.checkPairs (e.tokens negated ++ rest) = .ok () := by
  induction e generalizing negated rest with
  | literal numeral => exact Token.checkPairs_cons fits checked
  | name identifier => exact Token.checkPairs_cons fits checked
  | group inner ih =>
      have closed : Token.checkPairs ({ lexeme := .operator .closeParen ")" } :: rest) = .ok () :=
        Token.checkPairs_cons fits checked
      have whole : (group inner).tokens negated ++ rest = { lexeme := .operator .openParen "(", negated } ::
          (inner.tokens (inner.front = some .minus) ++ { lexeme := .operator .closeParen ")" } :: rest) := by
        simp [tokens]
      rw [whole]
      refine Token.checkPairs_cons (inner.head_fits (fun _ => rfl) rfl _ _) (ih _ ?_ closed)
      rintro next ⟨⟩
      exact inner.last_fits (fun _ => rfl) rfl
  | signed sign operand ih => exact ih negated fits checked
  | plain inner ih => exact ih negated fits checked
  | binary op left right leftIh rightIh =>
      generalize absorbed : op.absorb right.front = after
      obtain ⟨op', front'⟩ := after
      have whole : (binary op left right).tokens negated ++ rest =
          left.tokens negated ++ { lexeme := op'.lexeme } :: (right.tokens (front' = some .minus) ++ rest) := by
        simp [tokens, absorbed]
      rw [whole]
      refine leftIh _ ?_ (Token.checkPairs_cons (right.head_fits (fun _ => rfl) rfl _ _) (rightIh _ fits checked))
      rintro next ⟨⟩
      exact left.last_fits (fun _ => rfl) rfl

theorem tokens_checked (e : Formula bound) (negated : Bool) : Token.checkNeighbours (e.tokens negated) = .ok () := by
  obtain ⟨first, head, firstLexeme⟩ := Option.map_eq_some_iff.mp (e.tokens_head negated [])
  obtain ⟨last, final, lastLexeme⟩ := Option.map_eq_some_iff.mp (e.tokens_last negated)
  have noInfix : first.lexeme.isInfix = false := by
    rw [firstLexeme]
    rcases e.first_cases with ⟨text, same⟩ | same <;> rw [same] <;> rfl
  have noInfix' : last.lexeme.isInfix = false := by
    rw [lastLexeme]
    rcases e.last_cases with ⟨text, same⟩ | same <;> rw [same] <;> rfl
  have pairs := @checkPairs_tokens _ e negated [] (fun next member => by cases member) rfl
  rw [List.append_nil] at head pairs
  simp [Token.checkNeighbours, head, final, noInfix, noInfix', pairs]

theorem tokenize_text (e : Formula bound) :
    Token.tokenize e.text = .ok (e.tokens (e.front = some .minus)) := by
  have collapsed := e.collapseSigns_lexemes []
  obtain ⟨negated, plain⟩ := marks_front e.front
  have marked : Token.mark none none (Lexeme.collapseSigns e.lexemes) = .ok (e.tokens (e.front = some .minus)) := by
    rw [List.append_nil] at collapsed
    rw [collapsed, Token.mark_leading rfl, e.mark_core rfl plain, negated]
    simp [Lexeme.collapseSigns, Token.mark, Except.map]
  simp [Token.tokenize, e.text_balanced, e.text_scanned, marked, e.tokens_checked, bind, Except.bind, pure, Except.pure]

end Formula

end CommandScript
