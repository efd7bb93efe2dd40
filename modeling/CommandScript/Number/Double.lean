import CommandScript.Error.Kind
import CommandScript.Number.Rounding
import CommandScript.Text.Digit

/-! Doubles by their parts. Conversions from and to integers and decimals go through exact
arithmetic on sign, mantissa and exponent. -/

namespace CommandScript.Number

inductive Parts where
  | nan
  | infinite (negative : Bool)
  /-- The number `m * 2 ^ q`, with a sign. -/
  | finite (negative : Bool) (m : Nat) (q : Int)
  deriving DecidableEq, Repr

def parts (x : Float) : Parts :=
  let bits := x.toBits.toNat
  let negative := bits / twoTo 63 = 1
  let biased : Nat := bits / twoTo 52 % twoTo 11
  let fraction := bits % twoTo 52
  if biased = 2047 then if fraction = 0 then .infinite negative else .nan
  else if biased = 0 then .finite negative fraction (-1074)
  else .finite negative (twoTo 52 + fraction) ((biased : Int) - 1075)

def infinity (negative : Bool) : Float :=
  Float.ofBits (if negative then 0xFFF0000000000000 else 0x7FF0000000000000)

def nan : Float := Float.ofBits 0x7FF8000000000000

/-- The bits of `m * 2 ^ q` in a format whose fields have the given widths. -/
def packBits (format : BinaryFormat) (exponentBits : Nat) (negative : Bool) (m : Nat) (q : Int) : Nat :=
  let hidden := twoTo (format.precision - 1)
  let sign := if negative then twoTo (format.precision - 1 + exponentBits) else 0
  if m < hidden then sign + m
  else sign + (q - format.least + 1).toNat * hidden + (m - hidden)

def ofRatio? (negative : Bool) (num den : Nat) : Option Float :=
  (nearest? binary64 num den).map fun (m, q) =>
    Float.ofBits (UInt64.ofNat (packBits binary64 11 negative m q))

def ofInt? (n : Int) : Option Float := ofRatio? (n < 0) n.natAbs 1

/-- The double nearest to `digits * 10 ^ exponent`; numbers out of range are infinite. -/
def ofDecimal (negative : Bool) (digits : Nat) (exponent : Int) : Float :=
  let size : Int := (Text.ofNat digits).length
  let found :=
    if digits = 0 ∨ size + exponent < -400 then ofRatio? negative 0 1
    else if size + exponent > 400 then none
    else
      match exponent with
      | .ofNat n => ofRatio? negative (digits * tenTo n) 1
      | .negSucc n => ofRatio? negative digits (tenTo (n + 1))
  found.getD (infinity negative)

def ratio (m : Nat) (q : Int) : Nat × Nat :=
  match q with
  | .ofNat n => (m * twoTo n, 1)
  | .negSucc n => (m, twoTo (n + 1))

def withSign (negative : Bool) (n : Nat) : Int := if negative then -(n : Int) else n

def truncate (x : Float) : Except Fault Int :=
  match parts x with
  | .nan => .error .nanInteger
  | .infinite _ => .error .infiniteInteger
  | .finite negative m q =>
    let (num, den) := ratio m q
    .ok (withSign negative (num / den))

def roundToInt (x : Float) : Except Fault Int :=
  match parts x with
  | .nan => .error .nanInteger
  | .infinite _ => .error .infiniteInteger
  | .finite negative m q =>
    let (num, den) := ratio m q
    .ok (withSign negative (roundDiv num den))

def floorInt (x : Float) : Except Fault Int :=
  match parts x with
  | .nan => .error .nanInteger
  | .infinite _ => .error .infiniteInteger
  | .finite negative m q =>
    let (num, den) := ratio m q
    .ok (Int.fdiv (withSign negative num) den)

def ceilInt (x : Float) : Except Fault Int :=
  match parts x with
  | .nan => .error .nanInteger
  | .infinite _ => .error .infiniteInteger
  | .finite negative m q =>
    let (num, den) := ratio m q
    .ok (-Int.fdiv (-withSign negative num) den)

def isInteger (x : Float) : Bool :=
  match parts x with
  | .finite _ m q => (ratio m q).1 % (ratio m q).2 = 0
  | _ => false

def isNegative (x : Float) : Bool := x.toBits.toNat / twoTo 63 = 1

def singleBits (x : Float) : Nat :=
  let infinite := fun (negative : Bool) => if negative then 0xFF800000 else 0x7F800000
  match parts x with
  | .nan => 0x7FC00000 + (if isNegative x then 0x80000000 else 0)
  | .infinite negative => infinite negative
  | .finite negative m q =>
    let (num, den) := ratio m q
    match nearest? binary32 num den with
    | some (m, q) => packBits binary32 8 negative m q
    | none => infinite negative

def ofSingleBits (bits : Nat) : Float :=
  let negative := bits / twoTo 31 % 2 = 1
  let biased : Nat := bits / twoTo 23 % twoTo 8
  let fraction := bits % twoTo 23
  if biased = 255 then if fraction = 0 then infinity negative else nan
  else
    let (m, q) : Nat × Int :=
      if biased = 0 then (fraction, -149) else (twoTo 23 + fraction, (biased : Int) - 150)
    let (num, den) := ratio m q
    (ofRatio? negative num den).getD (infinity negative)

end CommandScript.Number
