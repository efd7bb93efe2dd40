import Mathlib.Data.List.Chain
import CommandScript.Proofs.Grammar.Quotes

/-! The tokens of a tree may stand side by side: no operand is missing next to an operator, and no two operands
touch. -/

namespace CommandScript

namespace Token

def Fits (left right : Token) : Prop := clash left.lexeme right.lexeme = false

theorem checkPairs_eq_ok {tokens : List Token} : checkPairs tokens = .ok () ↔ tokens.IsChain Fits := by
  induction tokens with
  | nil => simp [checkPairs]
  | cons left rest ih =>
      cases rest with
      | nil => simp [checkPairs]
      | cons right more =>
          rw [List.isChain_cons_cons, ← ih, checkPairs, Fits]
          cases clash left.lexeme right.lexeme <;> simp

def EndsOperand (token : Token) : Prop := (token.lexeme.isValue || token.lexeme.isOperator .closeParen) = true

theorem endsOperand_cases {token : Token} (ends : EndsOperand token) :
    token.lexeme.isValue = true ∨ ∃ spelling, token.lexeme = .operator .closeParen spelling := by
  unfold EndsOperand at ends
  cases found : token.lexeme with
  | operator op spelling =>
      have close : op = .closeParen := by simpa [found, Lexeme.isValue, Lexeme.isOperator, Lexeme.operator?] using ends
      exact .inr ⟨spelling, by rw [close]⟩
  | _ => exact .inl rfl

theorem startsOperand_cases {lexeme : Lexeme} (starts : startsOperand lexeme = true) :
    lexeme.isValue = true ∨ ∃ spelling, lexeme = .operator .openParen spelling := by
  cases lexeme with
  | operator op spelling =>
      obtain rfl : op = .openParen := by
        simpa [startsOperand, Lexeme.isValue, Lexeme.isOperator, Lexeme.operator?] using starts
      exact .inr ⟨spelling, rfl⟩
  | _ => exact .inl rfl

theorem value_noInfix {lexeme : Lexeme} (value : lexeme.isValue = true) : lexeme.isInfix = false := by
  cases lexeme with
  | operator op spelling => cases value
  | _ => rfl

section

variable {op : Operator} (spelling : Text) {token : Token}

theorem fits_operand (before : op.isInfix = true ∨ op = .openParen) (starts : startsOperand token.lexeme = true) :
    Fits { lexeme := .operator op spelling } token := by
  have noClose : op ≠ .closeParen := by rintro rfl; cases before <;> contradiction
  rcases startsOperand_cases starts with value | ⟨other, same⟩
  · cases found : token.lexeme with
    | operator other spelling' => simp [found, Lexeme.isValue] at value
    | _ =>
        simp [Fits, clash, found, Lexeme.isInfix, Lexeme.isValue, Lexeme.isOperator, Lexeme.operator?, Lexeme.isQuoted,
          noClose]
  · simp [Fits, clash, same, Lexeme.isInfix, Lexeme.isValue, Lexeme.isOperator, Lexeme.operator?, Lexeme.isQuoted,
      Operator.isInfix, noClose]

theorem operand_fits (ends : EndsOperand token) (after : op.isInfix = true ∨ op = .closeParen) :
    Fits token { lexeme := .operator op spelling } := by
  have noOpen : op ≠ .openParen := by rintro rfl; cases after <;> contradiction
  rcases endsOperand_cases ends with value | ⟨other, same⟩
  · cases found : token.lexeme with
    | operator other spelling' => simp [found, Lexeme.isValue] at value
    | _ => simp [Fits, clash, found, Lexeme.isInfix, Lexeme.isValue, Lexeme.isOperator, Lexeme.operator?, noOpen]
  · simp [Fits, clash, same, Lexeme.isInfix, Lexeme.isValue, Lexeme.isOperator, Lexeme.operator?, Lexeme.isQuoted,
      Operator.isInfix, noOpen]

end

/-- Tokens between an operand's first one and its last one. -/
structure Operands (tokens : List Token) : Prop where
  first : ∃ token ∈ tokens.head?, startsOperand token.lexeme = true
  last : ∃ token ∈ tokens.getLast?, EndsOperand token
  chain : tokens.IsChain Fits

namespace Operands

variable {tokens others : List Token}

theorem single {token : Token} (value : token.lexeme.isValue = true) : Operands [token] where
  first := ⟨token, rfl, by rw [startsOperand, value]; rfl⟩
  last := ⟨token, rfl, by rw [EndsOperand, value]; rfl⟩
  chain := .singleton token

theorem infixed (left : Operands tokens) (right : Operands others) {op : Operator} (between : op.isInfix = true)
    (spelling : Text) : Operands (tokens ++ { lexeme := .operator op spelling } :: others) := by
  obtain ⟨first, atHead, starts⟩ := left.first
  obtain ⟨last, atEnd, ends⟩ := left.last
  obtain ⟨first', atHead', starts'⟩ := right.first
  obtain ⟨last', atEnd', ends'⟩ := right.last
  refine ⟨⟨first, ?_, starts⟩, ⟨last', ?_, ends'⟩, ?_⟩
  · rw [List.head?_append, Option.mem_def.mp atHead]
    rfl
  · rw [List.getLast?_append, List.getLast?_cons, Option.mem_def.mp atEnd']
    rfl
  · refine List.isChain_append.mpr ⟨left.chain, List.isChain_cons.mpr ⟨fun next found => ?_, right.chain⟩, ?_⟩
    · obtain rfl := Option.mem_unique atHead' found
      exact fits_operand spelling (.inl between) starts'
    · rintro token found _ ⟨⟩
      obtain rfl := Option.mem_unique atEnd found
      exact operand_fits spelling ends (.inl between)

theorem enclosed (inner : Operands tokens) (opening closing : Text) :
    Operands ({ lexeme := .operator .openParen opening } ::
      (tokens ++ [{ lexeme := .operator .closeParen closing }])) := by
  obtain ⟨first, atHead, starts⟩ := inner.first
  obtain ⟨last, atEnd, ends⟩ := inner.last
  refine ⟨⟨_, rfl, rfl⟩, ⟨{ lexeme := .operator .closeParen closing }, ?_, rfl⟩, ?_⟩
  · rw [List.getLast?_cons, List.getLast?_concat]
    rfl
  · refine List.isChain_cons.mpr ⟨fun next found => ?_, List.isChain_append.mpr ⟨inner.chain, .singleton _, ?_⟩⟩
    · rw [List.head?_append, Option.mem_def.mp atHead] at found
      obtain rfl := Option.some.inj found
      exact fits_operand opening (.inr rfl) starts
    · rintro token found _ ⟨⟩
      obtain rfl := Option.mem_unique atEnd found
      exact operand_fits closing ends (.inr rfl)

theorem empty (opening closing : Text) :
    Operands [{ lexeme := .operator .openParen opening }, { lexeme := .operator .closeParen closing }] where
  first := ⟨_, rfl, rfl⟩
  last := ⟨_, rfl, rfl⟩
  chain := List.isChain_cons_cons.mpr ⟨rfl, .singleton _⟩

theorem call {opening : Text} (args : Operands ({ lexeme := .operator .openParen opening } :: tokens)) (name : Text) :
    Operands ({ lexeme := .term name none } :: { lexeme := .operator .openParen opening } :: tokens) := by
  obtain ⟨last, atEnd, ends⟩ := args.last
  refine ⟨⟨_, rfl, rfl⟩, ⟨last, ?_, ends⟩, List.isChain_cons_cons.mpr ⟨rfl, args.chain⟩⟩
  rw [List.getLast?_cons_cons]
  exact atEnd

theorem marked {first : Token} (operands : Operands (first :: tokens)) (negated inverted : Bool) :
    Operands (⟨first.lexeme, negated, inverted⟩ :: tokens) := by
  obtain ⟨⟨_, ⟨⟩, starts⟩, ⟨last, atEnd, ends⟩, chain⟩ := operands
  cases tokens with
  | nil =>
      obtain rfl := Option.some.inj atEnd
      exact ⟨⟨_, rfl, starts⟩, ⟨_, rfl, ends⟩, .singleton _⟩
  | cons second more =>
      obtain ⟨fits, later⟩ := List.isChain_cons_cons.mp chain
      refine ⟨⟨_, rfl, starts⟩, ⟨last, ?_, ends⟩, List.isChain_cons_cons.mpr ⟨fits, later⟩⟩
      rw [List.getLast?_cons_cons] at atEnd ⊢
      exact atEnd

theorem checkNeighbours (operands : Operands tokens) : checkNeighbours tokens = .ok () := by
  obtain ⟨first, atHead, starts⟩ := operands.first
  obtain ⟨last, atEnd, ends⟩ := operands.last
  have noInfix : first.lexeme.isInfix = false := by
    rcases startsOperand_cases starts with value | ⟨spelling, same⟩
    · exact value_noInfix value
    · rw [same]
      rfl
  have noInfix' : last.lexeme.isInfix = false := by
    rcases endsOperand_cases ends with value | ⟨spelling, same⟩
    · exact value_noInfix value
    · rw [same]
      rfl
  rw [Token.checkNeighbours, Option.mem_def.mp atHead, Option.mem_def.mp atEnd]
  simp only [noInfix, noInfix', checkPairs_eq_ok.mpr operands.chain]
  rfl

end Operands

end Token

namespace Expr

variable {bracketed : Text → Except Malformed Expr}

theorem YieldsAll.filled {arg : Expr} {args : List Expr} {tokens : List Token}
    (yields : YieldsAll bracketed (arg :: args) tokens) : tokens ≠ [] := by
  cases yields with
  | one first =>
      obtain ⟨_, _, rfl, _⟩ := first.first
      exact List.cons_ne_nil _ _
  | more _ _ _ => simp

mutual

theorem Yields.operands {inCall : Bool} {e : Expr} {tokens : List Token} (yields : Yields bracketed inCall e tokens) :
    Token.Operands tokens := by
  match yields with
  | .term text => exact .single rfl
  | .element name _ => exact .single rfl
  | .quoted text => exact .single rfl
  | .bracket _ => exact .single rfl
  | @Yields.group _ _ _ _ opening closing _ _ inner => exact inner.operands.enclosed opening closing
  | @Yields.call _ _ name _ _ opening closing _ _ args =>
      rcases args.operands with rfl | operands
      · exact (Token.Operands.empty opening closing).call name
      · exact (operands.enclosed opening closing).call name
  | .negate operand => exact operand.operands.marked true _
  | .invert operand => exact operand.operands.marked _ true
  | @Yields.binary _ _ op _ _ _ _ spelling _ left right => exact left.operands.infixed right.operands rfl spelling

theorem YieldsAll.operands {args : List Expr} {tokens : List Token} (yields : YieldsAll bracketed args tokens) :
    tokens = [] ∨ Token.Operands tokens := by
  match yields with
  | .none => exact .inl rfl
  | .one first => exact .inr first.operands
  | @YieldsAll.more _ _ _ _ _ others comma _ first rest =>
      rcases rest.operands with rfl | operands
      · exact absurd rfl rest.filled
      · exact .inr (first.operands.infixed operands rfl comma)

end

/-- The steps from a text to its tree. The neighbours need no check, since the tokens of a tree pass it. -/
theorem parse_steps {text : Text} {e : Expr} :
    parse text = .ok e ↔
      ∃ lexemes tokens, Text.checkBalance text = .ok () ∧ Lexeme.scan text = .ok lexemes ∧
        Token.mark none none (Lexeme.collapseSigns lexemes) = .ok tokens ∧ WellShaped false e ∧
          Yields parse false e tokens := by
  rw [parse_eq_ok]
  constructor
  · rintro ⟨tokens, tokenized, shaped, yields⟩
    obtain ⟨_, balanced, scanning⟩ := bind_eq_ok.mp tokenized
    obtain ⟨lexemes, scanned, marking⟩ := bind_eq_ok.mp scanning
    obtain ⟨_, marked, checking⟩ := bind_eq_ok.mp marking
    obtain ⟨_, -, same⟩ := bind_eq_ok.mp checking
    cases same
    exact ⟨lexemes, tokens, balanced, scanned, marked, shaped, yields⟩
  · rintro ⟨lexemes, tokens, balanced, scanned, marked, shaped, yields⟩
    refine ⟨tokens, ?_, shaped, yields⟩
    have checked := yields.operands.checkNeighbours
    exact bind_eq_ok.mpr ⟨_, balanced,
      bind_eq_ok.mpr ⟨_, scanned, bind_eq_ok.mpr ⟨_, marked, bind_eq_ok.mpr ⟨_, checked, rfl⟩⟩⟩⟩

theorem Yields.inside {e : Expr} {lexemes : List Lexeme} {tokens : List Token}
    (marked : Token.mark none none (Lexeme.collapseSigns lexemes) = .ok tokens) (yields : Yields parse false e tokens)
    {lexeme : Lexeme} (member : lexeme ∈ lexemes) {inner : Text} (inside : lexeme.inside? = some inner) :
    ∃ tree, parse inner = .ok tree := by
  have value := Lexeme.inside_operator inside
  obtain ⟨token, among, rfl⟩ := Token.mark_values marked (Lexeme.collapseSigns_values member value) value
  exact yields.nests token among inner inside

end Expr

end CommandScript
