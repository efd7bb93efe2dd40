import CommandScript.Expr.Parser

/-! The grammar of expressions: which trees there are, and which tokens a tree is written with. Operators are ranked
by how tightly they bind; a left operand binds at least as tightly as its operator, and a right operand more tightly.
-/

namespace CommandScript

namespace Level

def tighter : Level → Option Level
  | logic => some comparison
  | comparison => some sum
  | sum => some product
  | product => none

def rank : Level → Nat
  | logic => 0
  | comparison => 1
  | sum => 2
  | product => 3

theorem rank_lt (level : Level) : level.rank < 4 := by
  cases level <;> decide

end Level

/-- How tightly the operators of a level bind at least; without a level there are only primaries. -/
def rankOf (bound : Option Level) : Nat := bound.elim 4 Level.rank

theorem rankOf_tighter (level : Level) : rankOf level.tighter = level.rank + 1 := by
  cases level <;> rfl

theorem rankOf_le (bound : Option Level) : rankOf bound ≤ 4 := by
  rcases bound with _ | _ | _ | _ | _ <;> decide

theorem rankOf_injective {first second : Option Level} (same : rankOf first = rankOf second) : first = second := by
  rcases first with _ | _ | _ | _ | _ <;> rcases second with _ | _ | _ | _ | _ <;> first | rfl | cases same

/-- The ways to write an operator: by one character, or by two. -/
inductive Operator.Spelled : Operator → Text → Prop
  | single {op : Operator} {c : CodePoint} : ofChar? c = some op → Spelled op [c]
  | double {op : Operator} {first second : CodePoint} : ofPair? first second = some op → Spelled op [first, second]

namespace Expr

def isOperand : Expr → Bool
  | negate _ | invert _ | binary _ _ _ => false
  | _ => true

def isSigned : Expr → Bool
  | negate operand => operand.isOperand
  | e => e.isOperand

/-- How tightly the outermost operator binds; primaries come last. -/
def rank : Expr → Nat
  | binary op _ _ => op.level.rank
  | _ => 4

/-- Trees of the grammar. `inCall` tells whether the tree stands inside the arguments of a call of the same text; the
text inside brackets is a text of its own. -/
inductive WellShaped : Bool → Expr → Prop
  | term {inCall : Bool} {text : Text} : text ≠ [] → WellShaped inCall (term text)
  | element {inCall : Bool} {name : Text} {index : Expr} :
      name ≠ [] → WellShaped false index → WellShaped inCall (element name index)
  | quoted {inCall : Bool} (text : Text) : WellShaped inCall (quoted text inCall)
  | group {inCall : Bool} {inner : Expr} : WellShaped inCall inner → WellShaped inCall (group false inner)
  | bracket {inCall : Bool} {inner : Expr} : WellShaped false inner → WellShaped inCall (group true inner)
  | call {inCall : Bool} {name : Text} {args : List Expr} :
      name.all Text.isDottedNameChar = true → (∀ arg ∈ args, WellShaped true arg) → WellShaped inCall (call name args)
  | negate {inCall : Bool} {operand : Expr} :
      operand.isOperand = true → WellShaped inCall operand → WellShaped inCall (negate operand)
  | invert {inCall : Bool} {operand : Expr} :
      operand.isSigned = true → WellShaped inCall operand → WellShaped inCall (invert operand)
  | binary {inCall : Bool} {op : BinaryOp} {left right : Expr} :
      op.level.rank ≤ left.rank → op.level.rank < right.rank → WellShaped inCall left → WellShaped inCall right →
      WellShaped inCall (binary op left right)

mutual

/-- The tokens of a tree, in order. A group is written in parentheses or is the tree of a bracket's text, the marks of
a primary stand on its first token, and `bracketed` gives the tree of a text inside brackets. -/
inductive Yields (bracketed : Text → Except Malformed Expr) : Bool → Expr → List Token → Prop
  | term {inCall : Bool} (text : Text) : Yields bracketed inCall (term text) [{ lexeme := .term text none }]
  | element {inCall : Bool} (name : Text) {inner : Text} {index : Expr} :
      bracketed inner = .ok index → Yields bracketed inCall (element name index) [{ lexeme := .term name (some inner) }]
  | quoted {inCall : Bool} (text : Text) : Yields bracketed inCall (quoted text inCall) [{ lexeme := .quoted text }]
  | group {inCall : Bool} {inner : Expr} {tokens : List Token} {opening closing : Text} :
      Operator.openParen.Spelled opening → Operator.closeParen.Spelled closing → Yields bracketed inCall inner tokens →
      Yields bracketed inCall (group false inner)
        ({ lexeme := .operator .openParen opening } :: tokens ++ [{ lexeme := .operator .closeParen closing }])
  | bracket {inCall : Bool} {text : Text} {inner : Expr} :
      bracketed text = .ok inner → Yields bracketed inCall (group true inner) [{ lexeme := .bracket text }]
  | call {inCall : Bool} (name : Text) {args : List Expr} {tokens : List Token} {opening closing : Text} :
      Operator.openParen.Spelled opening → Operator.closeParen.Spelled closing → YieldsAll bracketed args tokens →
      Yields bracketed inCall (call name args)
        ({ lexeme := .term name none } :: { lexeme := .operator .openParen opening } :: tokens ++
          [{ lexeme := .operator .closeParen closing }])
  | negate {inCall : Bool} {operand : Expr} {first : Token} {rest : List Token} :
      Yields bracketed inCall operand (first :: rest) →
      Yields bracketed inCall (negate operand) ({ first with negated := true } :: rest)
  | invert {inCall : Bool} {operand : Expr} {first : Token} {rest : List Token} :
      Yields bracketed inCall operand (first :: rest) →
      Yields bracketed inCall (invert operand) ({ first with inverted := true } :: rest)
  | binary {inCall : Bool} {op : BinaryOp} {left right : Expr} {before after : List Token} {spelling : Text} :
      (Operator.binary op).Spelled spelling → Yields bracketed inCall left before →
        Yields bracketed inCall right after →
      Yields bracketed inCall (binary op left right)
        (before ++ { lexeme := .operator (.binary op) spelling } :: after)

inductive YieldsAll (bracketed : Text → Except Malformed Expr) : List Expr → List Token → Prop
  | none : YieldsAll bracketed [] []
  | one {arg : Expr} {tokens : List Token} : Yields bracketed true arg tokens → YieldsAll bracketed [arg] tokens
  | more {arg next : Expr} {args : List Expr} {tokens others : List Token} {comma : Text} :
      Operator.comma.Spelled comma → Yields bracketed true arg tokens → YieldsAll bracketed (next :: args) others →
      YieldsAll bracketed (arg :: next :: args) (tokens ++ { lexeme := .operator .comma comma } :: others)

end

theorem isSigned_of_isOperand {e : Expr} (operand : e.isOperand = true) : e.isSigned = true := by
  cases e <;> simp_all [isOperand, isSigned]

theorem rank_of_isSigned {e : Expr} (signed : e.isSigned = true) : e.rank = 4 := by
  cases e <;> simp_all [isOperand, isSigned, rank]

theorem Yields.first {bracketed : Text → Except Malformed Expr} {inCall : Bool} {e : Expr} {tokens : List Token}
    (yields : Yields bracketed inCall e tokens) :
    ∃ first rest, tokens = first :: rest ∧ (first.lexeme.isValue || first.lexeme.isOperator .openParen) = true := by
  match yields with
  | .term text => exact ⟨_, _, rfl, rfl⟩
  | .element name _ => exact ⟨_, _, rfl, rfl⟩
  | .quoted text => exact ⟨_, _, rfl, rfl⟩
  | .group _ _ _ => exact ⟨_, _, rfl, rfl⟩
  | .bracket _ => exact ⟨_, _, rfl, rfl⟩
  | .call name _ _ _ => exact ⟨_, _, rfl, rfl⟩
  | .negate inner =>
      obtain ⟨first, rest, ⟨rfl, rfl⟩, value⟩ := inner.first
      exact ⟨_, _, rfl, value⟩
  | .invert inner =>
      obtain ⟨first, rest, ⟨rfl, rfl⟩, value⟩ := inner.first
      exact ⟨_, _, rfl, value⟩
  | .binary _ left _ =>
      obtain ⟨first, rest, rfl, value⟩ := left.first
      exact ⟨first, _, rfl, value⟩

end Expr

end CommandScript
