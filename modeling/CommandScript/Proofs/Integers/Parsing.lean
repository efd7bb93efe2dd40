import CommandScript.Proofs.Grammar.Accepted
import CommandScript.Proofs.Integers.Marking

/-! The tree that is read from the text of a formula. It is a tree of the grammar that is written with the formula's
tokens, so the parser gives it back. -/

namespace CommandScript

theorem BinaryOp.absorb_level (op : BinaryOp) (front : Option Sign) : (op.absorb front).1.level = op.level := by
  cases op with
  | arithmetic op => cases op <;> rcases front with _ | _ | _ <;> rfl
  | comparison op => rfl
  | connective op => rfl

theorem BinaryOp.spelled_text (op : BinaryOp) : (Operator.binary op).Spelled op.text := by
  rcases op with op | op | op <;> cases op <;> first | exact .single rfl | exact .double rfl

def Expr.signed (negated : Bool) (e : Expr) : Expr := if negated then .negate e else e

namespace Expr

variable {e : Expr}

theorem rank_signed (negated : Bool) (bare : e.isOperand = true) : (e.signed negated).rank = 4 := by
  cases negated with
  | false => exact rank_of_isSigned (isSigned_of_isOperand bare)
  | true => rfl

theorem WellShaped.signed {inCall : Bool} (shaped : WellShaped inCall e) (bare : e.isOperand = true) (negated : Bool) :
    WellShaped inCall (e.signed negated) := by
  cases negated with
  | false => exact shaped
  | true => exact .negate bare shaped

theorem Yields.signed {bracketed : Text → Except Malformed Expr} {inCall : Bool} {lexeme : Lexeme} {rest : List Token}
    (yields : Yields bracketed inCall e ({ lexeme } :: rest)) (negated : Bool) :
    Yields bracketed inCall (e.signed negated) ({ lexeme, negated } :: rest) := by
  cases negated with
  | false => exact yields
  | true => exact .negate yields

end Expr

namespace Formula

variable {bound : Option Level}

def tree (negated : Bool) {bound : Option Level} : Formula bound → Expr
  | literal numeral => .signed negated (.term numeral.digits)
  | name identifier => .signed negated (.term identifier.text)
  | group inner => .signed negated (.group false (inner.tree (inner.front = some .minus)))
  | signed _ operand => operand.tree negated
  | plain inner => inner.tree negated
  | binary op left right =>
    let (op, front) := op.absorb right.front
    .binary op (left.tree negated) (right.tree (front = some .minus))

theorem rank_tree (e : Formula bound) (negated : Bool) : rankOf bound ≤ (e.tree negated).rank := by
  induction e generalizing negated with
  | literal numeral => exact Nat.le_of_eq (Expr.rank_signed negated rfl).symm
  | name identifier => exact Nat.le_of_eq (Expr.rank_signed negated rfl).symm
  | group inner ih => exact Nat.le_of_eq (Expr.rank_signed negated rfl).symm
  | signed sign operand ih => exact ih negated
  | @plain level inner ih =>
      have step : rankOf level.tighter = rankOf (some level) + 1 := rankOf_tighter level
      have inside := ih negated
      simp only [tree]
      omega
  | binary op left right leftIh rightIh => exact Nat.le_of_eq (congrArg Level.rank (op.absorb_level right.front).symm)

theorem shaped_tree (e : Formula bound) (negated : Bool) : Expr.WellShaped false (e.tree negated) := by
  induction e generalizing negated with
  | literal numeral => exact Expr.WellShaped.signed (.term numeral.digits_filled) rfl negated
  | name identifier => exact Expr.WellShaped.signed (.term identifier.filled) rfl negated
  | group inner ih => exact Expr.WellShaped.signed (.group (ih _)) rfl negated
  | signed sign operand ih => exact ih negated
  | plain inner ih => exact ih negated
  | binary op left right leftIh rightIh =>
      have level := congrArg Level.rank (op.absorb_level right.front)
      have tightLeft : op.level.rank ≤ (left.tree negated).rank := left.rank_tree negated
      have tightRight := right.rank_tree ((op.absorb right.front).2 = some .minus)
      rw [rankOf_tighter] at tightRight
      exact .binary (Nat.le_trans (Nat.le_of_eq level) tightLeft) (Nat.lt_of_le_of_lt (Nat.le_of_eq level) tightRight)
        (leftIh negated) (rightIh _)

theorem yields_tree (bracketed : Text → Except Malformed Expr) (e : Formula bound) (negated : Bool) :
    Expr.Yields bracketed false (e.tree negated) (e.tokens negated) := by
  induction e generalizing negated with
  | literal numeral => exact Expr.Yields.signed (.term numeral.digits) negated
  | name identifier => exact Expr.Yields.signed (.term identifier.text) negated
  | group inner ih => exact Expr.Yields.signed (.group (.single rfl) (.single rfl) (ih _)) negated
  | signed sign operand ih => exact ih negated
  | plain inner ih => exact ih negated
  | binary op left right leftIh rightIh => exact .binary (BinaryOp.spelled_text _) (leftIh negated) (rightIh _)

theorem parse_text (e : Formula (some .logic)) : Expr.parse e.text = .ok (e.tree (e.front = some .minus)) :=
  Expr.parse_eq_ok.mpr ⟨_, e.tokenize_text, e.shaped_tree _, e.yields_tree _ _⟩

end Formula

end CommandScript
