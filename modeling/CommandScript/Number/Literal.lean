import CommandScript.Number.Decimal

/-! Number literals: an optional sign and decimal digits of any script, with a point and an exponent
for doubles. White space around a literal does not count. -/

namespace CommandScript.Number

def cutSign : Text → Bool × Text
  | '-' :: rest => (true, rest)
  | '+' :: rest => (false, rest)
  | s => (false, s)

def cutDigits (s : Text) : Text × Text := (s.takeWhile Text.isDecimal, s.dropWhile Text.isDecimal)

/-- Integers are read and shown with at most this many digits. -/
def mostIntegerDigits : Nat := 4300

def integerLimit : Nat := tenTo mostIntegerDigits

def parseInt (text : Text) : Except Fault (Option Int) :=
  let (negative, digits) := cutSign (Text.trim text)
  if digits = [] ∨ !digits.all Text.isDecimal then .ok none
  else if mostIntegerDigits < digits.length then .error .digits
  else .ok (some (withSign negative (Text.digitsToNat digits)))

def integerText (n : Int) : Except Fault Text :=
  if n.natAbs < integerLimit then .ok (Text.ofInt n) else .error .digits

structure Decimal where
  negative : Bool
  digits : Nat
  exponent : Int
  deriving DecidableEq, Repr

def Decimal.toFloat (d : Decimal) : Float := ofDecimal d.negative d.digits d.exponent

/-- The exponent part of a literal, which may be missing but not incomplete. -/
def parseExponent : Text → Option Int
  | [] => some 0
  | mark :: rest =>
    if mark = 'e' ∨ mark = 'E' then
      let (negative, digits) := cutSign rest
      if digits ≠ [] ∧ digits.all Text.isDecimal then
        some (withSign negative (Text.digitsToNat digits))
      else none
    else none

def parseDecimal (text : Text) : Option Decimal := do
  let (negative, body) := cutSign (Text.trim text)
  let (whole, afterWhole) := cutDigits body
  let (fraction, rest) :=
    match afterWhole with
    | '.' :: more => cutDigits more
    | other => ([], other)
  guard (whole ≠ [] ∨ fraction ≠ [])
  let exponent ← parseExponent rest
  return ⟨negative, Text.digitsToNat (whole ++ fraction), exponent - fraction.length⟩

def isNumber (text : Text) : Bool := (parseDecimal text).isSome

end CommandScript.Number
