import CommandScript.Expr.Operator

/-! Expression trees, and how deeply they are nested. Reading an expression goes down through the levels of
binding to an operand, and from there into parentheses, calls and brackets; evaluating it goes down its
tree. The language bounds both ways. -/

namespace CommandScript

inductive Expr where
  | term (text : Text)
  | element (name : Text) (index : Expr)
  /-- A quoted text; `inCall` tells whether it stands inside the arguments of a call. -/
  | quoted (text : Text) (inCall : Bool)
  /-- An expression in parentheses, or the text of a bracket that stands for itself. -/
  | group (bare : Bool) (inner : Expr)
  | call (name : Text) (args : List Expr)
  | negate (operand : Expr)
  | invert (operand : Expr)
  | binary (op : BinaryOp) (left right : Expr)
  deriving Repr

namespace Expr

mutual

/-- Steps down to the innermost operand while an expression is read: four levels of binding and the
operand, and what leads into calls and brackets. A chain of operators takes no steps. -/
def readingDepth : Expr → Nat
  | term _ | quoted _ _ => 5
  | element _ index | group true index => 7 + readingDepth index
  | group false inner => 5 + readingDepth inner
  | call _ args => 6 + readingDepthAll args
  | negate operand | invert operand => readingDepth operand
  | binary _ left right => max (readingDepth left) (readingDepth right)

def readingDepthAll : List Expr → Nat
  | [] => 0
  | e :: rest => max (readingDepth e) (readingDepthAll rest)

end

mutual

def evalDepth : Expr → Nat
  | term _ | quoted _ _ => 1
  | element _ index => 3 + evalDepth index
  | group _ inner => 1 + evalDepth inner
  | call _ args => 3 + evalDepthAll args
  | negate operand | invert operand => 1 + evalDepth operand
  | binary _ left right => 1 + max (evalDepth left) (evalDepth right)

def evalDepthAll : List Expr → Nat
  | [] => 0
  | e :: rest => max (evalDepth e) (evalDepthAll rest)

end

/-- The depth of calls that an expression needs, with the calls around the steps down. -/
def callsNeeded (e : Expr) : Nat := max (readingDepth e + 5) (evalDepth e + 4)

end Expr

end CommandScript
