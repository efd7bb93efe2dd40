import CommandScript.Number.Double
import CommandScript.Text.Digit

/-! Decimal renderings of a quotient: with a fixed number of places, with an exponent, whichever of
the two is shorter, or with as few digits as read back. Every rendering is correctly rounded, ties to
the even digit. -/

namespace CommandScript.Number

def zeros (n : Nat) : Text := List.replicate n (CodePoint.char '0')

def padded (width n : Nat) : Text :=
  let digits := Text.ofNat n
  zeros (width - digits.length) ++ digits

def exponentText (x : Int) : Text := .char 'e' :: (if x < 0 then '-' else '+') :: padded 2 x.natAbs

def withPoint (keepPoint : Bool) (digits : Text) : Text :=
  if digits.isEmpty && !keepPoint then [] else .char '.' :: digits

def fixedText (places : Nat) (keepPoint : Bool) (num den : Nat) : Text :=
  let digits := padded (places + 1) (roundDiv (num * tenTo places) den)
  let whole := digits.length - places
  digits.take whole ++ withPoint keepPoint (digits.drop whole)

def overTen (num den : Nat) (x : Int) : Nat × Nat :=
  match x with
  | .ofNat n => (num, den * tenTo n)
  | .negSucc n => (num * tenTo (n + 1), den)

def floorLogTen (num den : Nat) : Int :=
  let guess := ((Text.ofNat num).length : Int) - (Text.ofNat den).length
  let (top, bottom) := overTen num den guess
  if bottom ≤ top then guess else guess - 1

/-- A quotient rounded to a number of significant digits: the digits, and the exponent of the
first of them. -/
def significant (digits : Nat) (num den : Nat) : Text × Int :=
  if num = 0 then (zeros digits, 0)
  else
    let x := floorLogTen num den
    let (top, bottom) := overTen num den (x - digits + 1)
    let n := roundDiv top bottom
    if n = tenTo digits then (Text.ofNat (tenTo (digits - 1)), x + 1) else (Text.ofNat n, x)

def dropTrailingZeros (digits : Text) : Text := (digits.reverse.dropWhile (· = .char '0')).reverse

def exponentForm (places : Nat) (keepPoint : Bool) (num den : Nat) : Text :=
  let (digits, x) := significant (places + 1) num den
  digits.take 1 ++ withPoint keepPoint (digits.drop 1) ++ exponentText x

/-- A number of significant digits, positional from `10 ^ -4` up to that number of digits and with
an exponent elsewhere; zeros at the end are only kept on request. -/
def generalText (precision : Nat) (keepZeros : Bool) (num den : Nat) : Text :=
  let precision := max precision 1
  let (digits, x) := significant precision num den
  let trimmed := fun (s : Text) => if keepZeros then s else dropTrailingZeros s
  if x < -4 ∨ x ≥ precision then
    digits.take 1 ++ withPoint keepZeros (trimmed (digits.drop 1)) ++ exponentText x
  else if x < 0 then
    .char '0' :: withPoint keepZeros (trimmed (zeros (x.natAbs - 1) ++ digits))
  else
    digits.take (x.toNat + 1) ++ withPoint keepZeros (trimmed (digits.drop (x.toNat + 1)))

def readsBack (num den : Nat) (decimal : Nat × Int) : Bool :=
  let (top, bottom) := overTen decimal.1 1 (-decimal.2)
  nearest? binary64 top bottom = nearest? binary64 num den

def neighbours (num den digits : Nat) : List (Nat × Int) :=
  let k := floorLogTen num den - digits + 1
  let (top, bottom) := overTen num den k
  [(roundDiv top bottom, k), (top / bottom + 1, k)]

/-- The fewest significant digits that read back, and the exponent of the first of them; seventeen
digits always read back. -/
def shortestDigits (num den : Nat) : Text × Int :=
  if num = 0 then ("0", 0)
  else
    let decimals := (List.range 17).flatMap fun n => neighbours num den (n + 1)
    let (n, k) := (decimals.find? (readsBack num den)).getD (0, 0)
    let digits := Text.ofNat n
    (dropTrailingZeros digits, k + digits.length - 1)

/-- The fewest digits that read back, positional from `10 ^ -4` up to `10 ^ 16` and with an exponent
elsewhere. A positional number has a digit after its point. -/
def shortestText (num den : Nat) : Text :=
  let (digits, x) := shortestDigits num den
  if x < -4 ∨ x ≥ 16 then digits.take 1 ++ withPoint false (digits.drop 1) ++ exponentText x
  else if x < 0 then "0." ++ zeros (x.natAbs - 1) ++ digits
  else
    let fraction := digits.drop (x.toNat + 1)
    digits.take (x.toNat + 1) ++ zeros (x.toNat + 1 - digits.length) ++ "." ++ Text.orElse fraction "0"

def render (magnitude : Nat → Nat → Text) (x : Float) : Text :=
  match parts x with
  | .nan => "nan"
  | .infinite negative => if negative then "-inf" else "inf"
  | .finite negative m q =>
    let (num, den) := ratio m q
    if negative then .char '-' :: magnitude num den else magnitude num den

def shown (x : Float) : Text := render (generalText 15 false) x

end CommandScript.Number
