/-! Rounding a quotient of natural numbers, to an integer or to a binary floating-point format. -/

namespace CommandScript.Number

abbrev twoTo (exponent : Nat) : Nat := Nat.pow 2 exponent

abbrev tenTo (exponent : Nat) : Nat := Nat.pow 10 exponent

/-- The integer nearest to a quotient; a tie goes to the even one. -/
def roundDiv (num den : Nat) : Nat :=
  let whole := num / den
  let left := 2 * (num % den)
  if left < den then whole
  else if left > den then whole + 1
  else if whole % 2 = 0 then whole else whole + 1

/-- A binary format: numbers `m * 2 ^ q` with `m` below `2 ^ precision` and `q` in a range. -/
structure BinaryFormat where
  precision : Nat
  least : Int
  greatest : Int
  deriving DecidableEq, Repr

def binary64 : BinaryFormat := ⟨53, -1074, 971⟩

def binary32 : BinaryFormat := ⟨24, -149, 104⟩

def overPower (num den : Nat) (q : Int) : Nat × Nat :=
  match q with
  | .ofNat n => (num, den * twoTo n)
  | .negSucc n => (num * twoTo (n + 1), den)

def floorLog (num den : Nat) : Int :=
  let guess := (num.log2 : Int) - den.log2
  let (top, bottom) := overPower num den guess
  if bottom ≤ top then guess else guess - 1

/-- The number of a format nearest to a quotient, ties to an even mantissa; none beyond the
format's range. -/
def nearest? (format : BinaryFormat) (num den : Nat) : Option (Nat × Int) :=
  if num = 0 then some (0, format.least)
  else
    let q := max format.least (floorLog num den - format.precision + 1)
    let (top, bottom) := overPower num den q
    let m := roundDiv top bottom
    let (m, q) := if m = twoTo format.precision then (twoTo (format.precision - 1), q + 1) else (m, q)
    if q > format.greatest then none else some (m, q)

end CommandScript.Number
