import CommandScript.Text.Basic

/-! Operators of expressions. -/

namespace CommandScript

inductive Arithmetic where
  | add
  | sub
  | mul
  | div
  deriving DecidableEq, Repr

inductive Comparison where
  | equal
  | sameText
  /-- Equal up to the length of the shorter text when case is ignored. -/
  | sameStart
  | differ
  | less
  | greater
  | atLeast
  | atMost
  deriving DecidableEq, Repr

inductive Connective where
  | both
  | either
  deriving DecidableEq, Repr

inductive BinaryOp where
  | arithmetic (op : Arithmetic)
  | comparison (op : Comparison)
  | connective (op : Connective)
  deriving DecidableEq, Repr

/-- Levels of binding, loosest first. All operators of a level group to the left. -/
inductive Level where
  | logic
  | comparison
  | sum
  | product
  deriving DecidableEq, Repr

def Arithmetic.text : Arithmetic → Text
  | add => "+"
  | sub => "-"
  | mul => "*"
  | div => "/"

def Comparison.text : Comparison → Text
  | equal => "=="
  | sameText => "~="
  | sameStart => "^="
  | differ => "!="
  | less => "<"
  | greater => ">"
  | atLeast => ">="
  | atMost => "<="

def Connective.text : Connective → Text
  | both => "&&"
  | either => "||"

namespace BinaryOp

def text : BinaryOp → Text
  | arithmetic op => op.text
  | comparison op => op.text
  | connective op => op.text

def level : BinaryOp → Level
  | arithmetic .add | arithmetic .sub => .sum
  | arithmetic .mul | arithmetic .div => .product
  | comparison _ => .comparison
  | connective _ => .logic

end BinaryOp

inductive Operator where
  | openParen
  | closeParen
  | comma
  | not
  | binary (op : BinaryOp)
  deriving DecidableEq, Repr

namespace Operator

def plus : Operator := binary (.arithmetic .add)

def minus : Operator := binary (.arithmetic .sub)

def text : Operator → Text
  | openParen => "("
  | closeParen => ")"
  | comma => ","
  | not => "!"
  | binary op => op.text

def isInfix : Operator → Bool
  | comma | binary _ => true
  | _ => false

def isSign (op : Operator) : Bool := op = plus || op = minus

def ofPair? (first second : CodePoint) : Option Operator :=
  match first, second with
  | '=', '=' => some (binary (.comparison .equal))
  | '~', '=' => some (binary (.comparison .sameText))
  | '^', '=' => some (binary (.comparison .sameStart))
  | '!', '=' => some (binary (.comparison .differ))
  | '>', '=' => some (binary (.comparison .atLeast))
  | '<', '=' => some (binary (.comparison .atMost))
  | '&', '&' => some (binary (.connective .both))
  | '|', '|' => some (binary (.connective .either))
  | _, _ => none

/-- The operator of one character. A single `=`, `~`, `^`, `&` or `|` means the same as the
doubled form. -/
def ofChar? : CodePoint → Option Operator
  | '(' => some openParen
  | ')' => some closeParen
  | '+' => some plus
  | '-' => some minus
  | '*' => some (binary (.arithmetic .mul))
  | '/' => some (binary (.arithmetic .div))
  | ',' => some comma
  | '=' => some (binary (.comparison .equal))
  | '!' => some not
  | '~' => some (binary (.comparison .sameText))
  | '^' => some (binary (.comparison .sameStart))
  | '<' => some (binary (.comparison .less))
  | '>' => some (binary (.comparison .greater))
  | '&' => some (binary (.connective .both))
  | '|' => some (binary (.connective .either))
  | _ => none

end Operator

end CommandScript
