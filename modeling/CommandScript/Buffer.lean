import CommandScript.Number.Double
import CommandScript.Text.Digit

/-! Buffers: typed arrays of numbers that the host lends to scripts. -/

namespace CommandScript

inductive ElementType where
  | float32
  | float64
  | int32
  | int64
  deriving DecidableEq, Repr

namespace ElementType

def text : ElementType → Text
  | float32 => "float32"
  | float64 => "float64"
  | int32 => "int32"
  | int64 => "int64"

def of? (name : Text) : Option ElementType :=
  [float32, float64, int32, int64].find? (·.text = name)

end ElementType

inductive Sample where
  | int (n : Int)
  | real (x : Float)

/-- A buffer by its element type; single-precision numbers are kept as their bits. -/
inductive Buffer where
  | float32 (bits : List Nat)
  | float64 (values : List Float)
  | int32 (values : List Int)
  | int64 (values : List Int)

namespace Buffer

def littleEndian : Nat → Nat → List UInt8
  | 0, _ => []
  | width + 1, n => UInt8.ofNat (n % 256) :: littleEndian width (n / 256)

def integerBytes (width : Nat) (n : Int) : List UInt8 :=
  littleEndian width (n % (Number.twoTo (8 * width) : Int)).toNat

def size : Buffer → Nat
  | float32 bits => bits.length
  | float64 values => values.length
  | int32 values | int64 values => values.length

def elementType : Buffer → ElementType
  | float32 _ => .float32
  | float64 _ => .float64
  | int32 _ => .int32
  | int64 _ => .int64

def shown (buffer : Buffer) : Text :=
  "<buffer " ++ buffer.elementType.text ++ "[" ++ Text.ofNat buffer.size ++ "]>"

def elementBytes : Buffer → List (List UInt8)
  | float32 bits => bits.map (littleEndian 4)
  | float64 values => values.map fun x => littleEndian 8 x.toBits.toNat
  | int32 values => values.map (integerBytes 4)
  | int64 values => values.map (integerBytes 8)

def bytes (buffer : Buffer) (start count : Nat) : Nat × List UInt8 :=
  let chunk := (buffer.elementBytes.drop start).take count
  (chunk.length, chunk.flatten)

/-- The magnitude of `m * 2 ^ q` in units of the least double. -/
def units (m : Nat) (q : Int) : Nat := m * Number.twoTo (q + 1074).toNat

def magnitude (x : Float) : Option Nat :=
  match Number.parts x with
  | .nan => none
  | .infinite _ => some (Number.twoTo 2200)
  | .finite _ m q => some (units m q)

def integerMagnitude (n : Int) : Option Nat :=
  match Number.nearest? Number.binary64 n.natAbs 1 with
  | some (m, q) => some (units m q)
  | none => some (Number.twoTo 2200)

def magnitudes : Buffer → List (Option Nat)
  | float32 bits => bits.map fun b => magnitude (Number.ofSingleBits b)
  | float64 values => values.map magnitude
  | int32 values | int64 values => values.map integerMagnitude

/-- The place of the largest magnitude: of equal ones the first, and what is no number counts as
largest. `best` and `place` are the largest so far and its place. -/
def largest (best : Option Nat) (place next : Nat) : List (Option Nat) → Nat
  | [] => place
  | candidate :: rest =>
    match best, candidate with
    | none, _ => place
    | some _, none => next
    | some old, some new =>
      if old < new then largest candidate next (next + 1) rest
      else largest best place (next + 1) rest

def clamp (size : Nat) (position : Int) : Nat :=
  if position < 0 then (position + size).toNat else min position.toNat size

def slice (buffer : Buffer) (start count : Int) : Nat × List UInt8 :=
  let first := clamp buffer.size start
  buffer.bytes first (clamp buffer.size (start + count) - first)

def maxabs (buffer : Buffer) (start stop : Int) : Except Fault Int :=
  let first := clamp buffer.size start
  let window := (buffer.magnitudes.take (clamp buffer.size (stop + 1))).drop first
  match window with
  | [] => .error .emptyWindow
  | head :: rest => .ok (start + largest head 0 1 rest)

def toDouble : Sample → Except Fault Float
  | .int n =>
    match Number.ofInt? n with
    | some x => .ok x
    | none => .error .integerTooLarge
  | .real x => .ok x

def inWidth (bits : Nat) (n : Int) : Bool :=
  let half : Int := Number.twoTo (bits - 1)
  decide (-half ≤ n) && decide (n < half)

def toInteger (bits : Nat) : Sample → Except Fault Int
  | .int n => if inWidth bits n then .ok n else .error .elementRange
  | .real x => do
    let n ← Number.truncate x
    if inWidth 64 n then return Int.bmod n (Number.twoTo bits) else throw .elementRange

def ofSamples (type : ElementType) (samples : List Sample) : Except Fault Buffer :=
  match type with
  | .float32 => do return float32 (← samples.mapM fun s => return Number.singleBits (← toDouble s))
  | .float64 => do return float64 (← samples.mapM toDouble)
  | .int32 => do return int32 (← samples.mapM (toInteger 32))
  | .int64 => do return int64 (← samples.mapM (toInteger 64))

inductive SampleKind where
  | signed
  | unsigned
  | beyond
  | real
  deriving DecidableEq, Repr

def sampleKind : Sample → SampleKind
  | .int n => if inWidth 64 n then .signed else if 0 ≤ n ∧ n < Number.twoTo 64 then .unsigned else .beyond
  | .real _ => .real

/-- A buffer of the type that suits all numbers: signed words if they hold all numbers, and doubles if
the numbers are of several kinds. There is no buffer of words without a sign. -/
def ofMixed (samples : List Sample) : Except Fault Buffer :=
  let kinds := samples.map sampleKind
  if kinds.contains .beyond then .error .elementType
  else if kinds = [] then ofSamples .float64 samples
  else if kinds.all (· = .signed) then ofSamples .int64 samples
  else if kinds.all (· = .unsigned) then .error .elementType
  else ofSamples .float64 samples

end Buffer

end CommandScript
