import CommandScript.Interpreter
import CommandScript.Proofs.Grammar.Shape

/-! Integer formulas and their standard meaning. A formula is a tree of the grammar, so that how tightly its
operators bind is part of its type; its text has one blank between any two tokens. -/

namespace CommandScript

abbrev Variables := Text → Option Int

def Variables.set (bindings : Variables) (name : Text) (n : Int) : Variables := fun other =>
  if other = name then some n else bindings other

def BinaryOp.apply : BinaryOp → Int → Int → Option Int
  | arithmetic .add, a, b => some (a + b)
  | arithmetic .sub, a, b => some (a - b)
  | arithmetic .mul, a, b => some (a * b)
  | arithmetic .div, a, b => if b = 0 then none else some (a.tdiv b)
  | comparison .equal, a, b => some (if a = b then 1 else 0)
  | comparison .sameText, a, b => some (if a = b then 1 else 0)
  | comparison .sameStart, a, b => some (if a = b then 1 else 0)
  | comparison .differ, a, b => some (if a ≠ b then 1 else 0)
  | comparison .less, a, b => some (if a < b then 1 else 0)
  | comparison .greater, a, b => some (if a > b then 1 else 0)
  | comparison .atLeast, a, b => some (if a ≥ b then 1 else 0)
  | comparison .atMost, a, b => some (if a ≤ b then 1 else 0)
  | connective .both, a, b => some (if a ≠ 0 ∧ b ≠ 0 then 1 else 0)
  | connective .either, a, b => some (if a ≠ 0 ∨ b ≠ 0 then 1 else 0)

inductive Sign where
  | plus
  | minus
  deriving DecidableEq, Repr

namespace Sign

def apply : Sign → Int → Int
  | plus, n => n
  | minus, n => -n

def op : Sign → BinaryOp
  | plus => .arithmetic .add
  | minus => .arithmetic .sub

end Sign

def isWordMark (c : CodePoint) : Bool := c.isAlphanum || c = '_'

def blockWords : List Text :=
  (["foreach", "endfor", "if", "elseif", "else", "endif"] : List Text)

structure Identifier where
  text : Text
  starts : text.head?.any fun c : CodePoint => c.isAlpha || c = '_'
  marks : text.all isWordMark
  free : Names.isReserved text = false
  noCommand : Command.of? text = none
  noBlock : Text.lower text ∉ blockWords

structure Numeral where
  figures : List Char
  filled : figures ≠ []
  decimal : figures.all Char.isDigit

def Numeral.number (numeral : Numeral) : Nat := Nat.ofDigitChars 10 numeral.figures 0

def Numeral.digits (numeral : Numeral) : Text := numeral.figures.map .char

theorem Numeral.digits_filled (numeral : Numeral) : numeral.digits ≠ [] := by
  simp [digits, numeral.filled]

theorem Numeral.isDigit {numeral : Numeral} {c : CodePoint} (member : c ∈ numeral.digits) : c.isDigit = true := by
  obtain ⟨figure, inside, rfl⟩ := List.mem_map.mp member
  exact List.all_eq_true.mp numeral.decimal figure inside

/-- A formula whose operators outside parentheses bind at least as tightly as a level; without a level there
are none. -/
inductive Formula : Option Level → Type where
  | literal (numeral : Numeral) : Formula none
  | name (identifier : Identifier) : Formula none
  | group (inner : Formula (some .logic)) : Formula none
  | signed (sign : Sign) (operand : Formula none) : Formula none
  | plain {level : Level} (inner : Formula level.tighter) : Formula (some level)
  | binary (op : BinaryOp) (left : Formula (some op.level)) (right : Formula op.level.tighter) :
      Formula (some op.level)

namespace Formula

variable {bound : Option Level}

/-- The integer that a formula stands for. There is none if a variable is not bound or a divisor is zero. -/
def value (bindings : Variables) {bound : Option Level} : Formula bound → Option Int
  | literal numeral => some numeral.number
  | name identifier => bindings identifier.text
  | group inner => inner.value bindings
  | signed sign operand => (operand.value bindings).map sign.apply
  | plain inner => inner.value bindings
  | binary op left right =>
    (left.value bindings).bind fun a => (right.value bindings).bind fun b => op.apply a b

def text {bound : Option Level} : Formula bound → Text
  | literal numeral => numeral.digits
  | name identifier => identifier.text
  | group inner => .char '(' :: .char ' ' :: (inner.text ++ " )")
  | signed sign operand => sign.op.text ++ .char ' ' :: operand.text
  | plain inner => inner.text
  | binary op left right => left.text ++ .char ' ' :: (op.text ++ .char ' ' :: right.text)

end Formula

structure Assignment where
  target : Identifier
  formula : Formula (some .logic)

namespace Assignment

def text (line : Assignment) : Text := line.target.text ++ " = " ++ line.formula.text

def next (line : Assignment) (bindings : Variables) : Variables :=
  match line.formula.value bindings with
  | some n => bindings.set line.target.text n
  | none => bindings

end Assignment

end CommandScript
