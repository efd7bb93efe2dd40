import CommandScript.Buffer
import CommandScript.Text.Quote
import CommandScript.Time.Stamp

/-! Values of expressions, and the values that texts stand for. -/

namespace CommandScript

inductive Value where
  | int (n : Int)
  | real (x : Float)
  | text (s : Text)
  | buffer (b : Buffer)

namespace Value

def isNumber : Value → Bool
  | int _ | real _ => true
  | _ => false

def shown : Value → Text
  | int n => Text.ofInt n
  | real x => Number.shown x
  | text s => s
  | buffer b => b.shown

def render : Value → Except Fault Text
  | int n => Number.integerText n
  | value => .ok value.shown

/-- Separators of information are white space, but not next to a double. -/
def isSeparator (c : CodePoint) : Bool := 0x1c ≤ c.toNat && c.toNat ≤ 0x1f

def classify (s : Text) : Except Fault Value :=
  match Number.parseInt s with
  | .error fault => .error fault
  | .ok (some n) => .ok (int n)
  | .ok none =>
    match Number.parseDecimal s with
    | some d => if s.any isSeparator then .error .separator else .ok (real d.toFloat)
    | none => .ok (text (Text.stripQuotes (Text.trim s)))

end Value

def namedConstants : List (Text × Float) :=
  let pi := Float.ofBits 0x400921FB54442D18
  let degree := Number.ofDecimal false 1111954 (-4)
  [("pi", pi), ("degrees_to_radians", pi / 180.0), ("radians_to_degrees", 180.0 / pi),
   ("degrees_to_km", degree), ("km_to_degrees", 1.0 / degree)]

def namedConstant? (text : Text) : Option Float := namedConstants.lookup (Text.lower text)

def parseDouble (text : Text) : Except Fault (Option Float) :=
  let text := Text.trim text
  match Number.parseDecimal text with
  | some d => .ok (some d.toFloat)
  | none =>
    match namedConstant? text with
    | some x => .ok (some x)
    | none => Time.parseTime text

def truthOf (s : Text) : Option Bool :=
  let word := Text.lower (Text.trim s)
  if word = "true" ∨ word = "1" then some true
  else if word = "false" ∨ word = "0" then some false
  else none

def truthText (flag : Bool) : Text := if flag then "true" else "false"

end CommandScript
