import CommandScript.Function.Math
import CommandScript.Session
import CommandScript.Text.Casing

/-! The functions of the language. -/

namespace CommandScript

inductive Builtin where
  | unary (f : UnaryMath)
  | binary (f : BinaryMath)
  | abs
  | int
  | double
  | time
  | epoch
  | etoh
  | substr
  | defined
  | maxabs
  | writeString
  | writeInt
  | writeLong
  | writeFloat
  | writeDouble
  | writeArray
  deriving DecidableEq, Repr

namespace Builtin

def all : List Builtin :=
  UnaryMath.all.map unary ++ BinaryMath.all.map binary ++
    [abs, int, double, time, epoch, etoh, substr, defined, maxabs, writeString, writeInt, writeLong,
     writeFloat, writeDouble, writeArray]

def name : Builtin → Text
  | unary f => f.name
  | binary f => f.name
  | abs => "abs"
  | int => "int"
  | double => "double"
  | time => "time"
  | epoch => "epoch"
  | etoh => "etoh"
  | substr => "substr"
  | defined => "defined"
  | maxabs => "maxabs"
  | writeString => "writeString"
  | writeInt => "writeInt"
  | writeLong => "writeLong"
  | writeFloat => "writeFloat"
  | writeDouble => "writeDouble"
  | writeArray => "writeArray"

def of? (name : Text) : Option Builtin :=
  all.find? fun f => Text.lower f.name = Text.lower name

def arity? : Builtin → Option Nat
  | unary _ | abs | int | double | epoch | etoh | defined => some 1
  | binary _ => some 2
  | time => some 0
  | substr => some 3
  | _ => none

variable {σ : Type}

def refuse {α : Type} (f : Builtin) (error : ArgumentError) : Run σ α := Run.fail (.function f.name error)

def number (f : Builtin) (error : ArgumentError) : Value → Run σ Float
  | .int n => Run.toDouble n
  | .real x => pure x
  | _ => f.refuse error

def integer (f : Builtin) (error : ArgumentError) : Value → Run σ Int
  | .int n => pure n
  | _ => f.refuse error

def checkMath {α : Type} (f : Builtin) : Except ArgumentError α → Run σ α
  | .ok value => pure value
  | .error error => f.refuse error

def resolve (env : Env σ) (name : Text) : Run σ Outcome :=
  Run.askOr (fun message => .eval (.resolverFailed name message)) (env.services.resolve name)

def isDefined (env : Env σ) (name : Text) : Run σ Bool := do
  if (← Run.ofFault (parseDouble name)).isSome then return true
  if (← Run.readVariable name).isSome then return true
  if ((← get).buffer? name).isSome then return true
  return (← resolve env name).ok

def runSubstr (f : Builtin) (text : Text) (start count : Value) : Run σ Value := do
  let start ← f.integer .notNumeric start
  let count ← f.integer .secondNotNumeric count
  if start < 0 ∨ start ≥ text.length then f.refuse .startRange
  return .text ((text.drop start.toNat).take count.toNat)

/-- The window of `maxabs` from its arguments after the buffer, counted from zero. -/
def maxabsWindow (f : Builtin) (size : Nat) (args : List Value) : Run σ (Int × Int) := do
  let mut start : Int := 0
  let mut stop : Int := (size : Int) - 1
  if let some first := args[0]? then
    start := (← f.integer (.notInteger 2) first) - 1
    if start < 0 then f.refuse .startLow
    if start ≥ size then f.refuse .startHigh
  if let some last := args[1]? then
    stop := (← f.integer (.notInteger 3) last) - 1
    if stop < start then f.refuse .endBeforeStart
    if stop ≥ size then f.refuse .endHigh
  if size = 0 then f.refuse .startHigh
  return (start, stop)

def runMaxabs (f : Builtin) : List Value → Run σ Value
  | [] => f.refuse .missingAny
  | first :: rest => do
    if rest.length > 2 then f.refuse .tooMany
    match first with
    | .buffer buffer =>
      let (start, stop) ← f.maxabsWindow buffer.size rest
      return .int ((← Run.ofFault (buffer.maxabs start stop)) + 1)
    | _ => f.refuse .notBufferType

def expectWriteFile (f : Builtin) : Run σ Unit := do
  if (← get).writeFile.isNone then f.refuse .noFile

def writtenValue (f : Builtin) (args : List Value) : Run σ Value := do
  f.expectWriteFile
  match args with
  | [] => f.refuse .missing
  | [value] => return value
  | _ => f.refuse .tooMany

def writeInteger (f : Builtin) (width : Nat) (args : List Value) : Run σ Value := do
  let n ← f.integer .type (← f.writtenValue args)
  if !Buffer.inWidth (8 * width) n then f.refuse .integerRange
  modify (·.writeBytes (Buffer.integerBytes width n))
  return .int 1

def writeReal (f : Builtin) (encode : Float → List UInt8) (args : List Value) : Run σ Value := do
  let x ← f.number .type (← f.writtenValue args)
  modify (·.writeBytes (encode x))
  return .int 1

def refuseNumber {α : Type} (f : Builtin) (n : Int) (error : ArgumentError) : Run σ α := do
  let _ ← Run.ofFault (Number.integerText n)
  f.refuse error

/-- The window of `writeArray`: where it starts, counted from zero, and how many elements it has. -/
def arrayWindow (f : Builtin) (size : Nat) (start count : Value) : Run σ (Nat × Nat) := do
  let start := (← f.integer (.notInteger 2) start) - 1
  if start < 0 then f.refuseNumber (start + 1) (.positionLow (start + 1))
  if start ≥ size then f.refuseNumber (start + 1) (.positionHigh (start + 1) size)
  let count ← f.integer (.notInteger 3) count
  if count < 0 then f.refuseNumber count (.countLow count)
  if start + count > size then f.refuseNumber count (.countHigh count size)
  return (start.toNat, count.toNat)

def runWriteArray (f : Builtin) (args : List Value) : Run σ Value := do
  f.expectWriteFile
  let (first, window) ←
    match args with
    | [first] => pure (first, none)
    | [first, start, count] => pure (first, some (start, count))
    | _ => f.refuse .oneOrThree
  match first with
  | .buffer buffer =>
    let (start, count) ←
      match window with
      | none => pure (0, buffer.size)
      | some (start, count) => f.arrayWindow buffer.size start count
    let (written, bytes) := buffer.bytes start count
    modify (·.writeBytes bytes)
    return .int written
  | _ => f.refuse .notBuffer

def run (env : Env σ) (f : Builtin) (args : List Value) : Run σ Value :=
  match f, args with
  | unary math, [x] => do return .real (← f.checkMath (math.apply (← f.number .notNumeric x)))
  | binary math, [x, y] => do
    let x ← f.number .notNumeric x
    let y ← f.number .secondNotNumeric y
    return .real (← f.checkMath (math.apply x y))
  | abs, [.int n] => pure (.int n.natAbs)
  | abs, [x] => do return .real (← f.number .notNumeric x).abs
  | int, [x] => do return .int (← Run.ofFault (Number.truncate (← f.number .notNumeric x)))
  | double, [x] => do return .real (← f.number .notNumeric x)
  | time, _ => do return .real (← Run.consult env.clock)
  | epoch, [.text s] => do
    match ← Run.ofFault (Time.parseTime (Text.stripQuotes s)) with
    | some x => return .real x
    | none => f.refuse .notTime
  | epoch, [x] => do return .real (← f.number .notTime x)
  | etoh, [x] => do
    let style : Time.Style := ⟨true, some 3⟩
    return .text (← Run.ofFault (Time.formatTime style (← f.number .notNumeric x)))
  | substr, [text, start, count] => do
    f.runSubstr (← Run.ofFault text.render) start count
  | defined, [.text name] => do return .int (if ← isDefined env name then 1 else 0)
  | defined, _ => f.refuse .notString
  | maxabs, args => f.runMaxabs args
  | writeString, args => do
    match ← f.writtenValue args with
    | .text s =>
      let bytes ← Run.ofFault (encodeWhole s)
      modify (·.writeBytes bytes)
      return .int bytes.length
    | _ => f.refuse .type
  | writeInt, args => f.writeInteger 4 args
  | writeLong, args => f.writeInteger 8 args
  | writeFloat, args => f.writeReal (fun x => Buffer.littleEndian 4 (Number.singleBits x)) args
  | writeDouble, args => f.writeReal (fun x => Buffer.littleEndian 8 x.toBits.toNat) args
  | writeArray, args => f.runWriteArray args
  | _, _ => f.refuse (.count (f.arity?.getD 0))

def sizeOf? (name : Text) : Run σ (Option Int) := do
  match (← get).buffer? name with
  | some buffer => return some buffer.size
  | none =>
    match ← Run.readVariable name with
    | none => return none
    | some text => return some (if Text.trim text = "\"\"" then 0 else (splitArray text).length)

def callHost (env : Env σ) (name : Text) (args : List Value) : Run σ Value := do
  let texts ← Run.ofFault (args.mapM Value.render)
  let outcome ← Run.askOr (fun message => .eval (.functionFailed name message))
    (env.services.call name texts)
  if outcome.answer = .notFound then Run.fail (.eval (.unknownFunction name))
  if !outcome.ok then Run.fail (.eval (.functionRefused name outcome.value))
  Run.ofFault outcome.toValue

def invoke (env : Env σ) (name : Text) (args : List Value) : Run σ Value := do
  match of? name with
  | some f =>
    match f.arity? with
    | some needed => if args.length ≠ needed then f.refuse (.count needed)
    | none => pure ()
    f.run env args
  | none =>
    if args.isEmpty && Text.endsWith ".size" (Text.lower name) then
      match ← sizeOf? (name.take (name.length - 5)) with
      | some n => return .int n
      | none => callHost env name args
    else callHost env name args

end Builtin

end CommandScript
