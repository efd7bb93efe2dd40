import CommandScript.Expr.Parser
import CommandScript.Function.Builtin

/-! Evaluation of expressions. Integers are exact; an operation on an integer and a double is one on
doubles; quoted texts count as values only in conditions and in the arguments of calls. -/

namespace CommandScript

variable {σ : Type}

namespace Comparison

def onOrdering {α : Type} (op : Comparison) (equal less greater : α → α → Bool) (a b : α) : Bool :=
  match op with
  | .equal | .sameText | .sameStart => equal a b
  | .differ => !equal a b
  | .less => less a b
  | .greater => greater a b
  | .atLeast => greater a b || equal a b
  | .atMost => less a b || equal a b

def onInts (op : Comparison) (a b : Int) : Bool :=
  op.onOrdering (fun a b => a = b) (fun a b => a < b) (fun a b => b < a) a b

def onDoubles (op : Comparison) (a b : Float) : Bool :=
  op.onOrdering (fun a b => a == b) (fun a b => a < b) (fun a b => b < a) a b

/-- The texts agree up to the length of the shorter one when case is ignored. -/
def startsAgree (a b : Text) : Bool :=
  let n := min a.length b.length
  Text.lower (a.take n) = Text.lower (b.take n)

def onTexts (op : Comparison) (a b : Text) : Bool :=
  match op with
  | .equal => a = b
  | .sameText => Text.lower a = Text.lower b
  | .sameStart => startsAgree a b
  | .differ => a ≠ b
  | .less => a < b
  | .greater => b < a
  | .atLeast => ¬ a < b
  | .atMost => ¬ b < a

end Comparison

namespace Expr

def ofBool (flag : Bool) : Value := .int (if flag then 1 else 0)

def asDouble : Value → Run σ Float
  | .int n => Run.toDouble n
  | .real x => pure x
  | _ => pure 0.0

def onInts (op : Arithmetic) (a b : Int) : Run σ Value :=
  match op with
  | .add => pure (.int (a + b))
  | .sub => pure (.int (a - b))
  | .mul => pure (.int (a * b))
  | .div => if b = 0 then Run.fail (.eval .divisionByZero) else pure (.int (Int.tdiv a b))

def onDoubles (op : Arithmetic) (x y : Float) : Run σ Value :=
  match op with
  | .add => pure (.real (x + y))
  | .sub => pure (.real (x - y))
  | .mul => pure (.real (x * y))
  | .div => if y == 0.0 then Run.fail (.eval .divisionByZero) else pure (.real (x / y))

def arithmetic (op : Arithmetic) (left right : Value) : Run σ Value := do
  if !left.isNumber then Run.fail (.eval (.operand left.shown op.text))
  if !right.isNumber then Run.fail (.eval (.operand right.shown op.text))
  match left, right with
  | .int a, .int b => onInts op a b
  | _, _ => onDoubles op (← asDouble left) (← asDouble right)

def compare (op : Comparison) (left right : Value) : Run σ Value := do
  match left, right with
  | .int a, .int b => return ofBool (op.onInts a b)
  | .text a, .text b => return ofBool (op.onTexts a b)
  | _, _ =>
    if left.isNumber && right.isNumber then
      return ofBool (op.onDoubles (← asDouble left) (← asDouble right))
    else return ofBool false

def connected (op : Connective) (value : Value) : Run σ Bool :=
  let refused := Run.fail (.eval (.operand value.shown op.text))
  match value with
  | .int n => pure (n ≠ 0)
  | .text s =>
    match truthOf s with
    | some flag => pure flag
    | none => refused
  | _ => refused

def combine (op : BinaryOp) (left right : Value) : Run σ Value :=
  match op with
  | .arithmetic op => arithmetic op left right
  | .comparison op => compare op left right
  | .connective op => do
    let a ← connected op left
    let b ← connected op right
    return ofBool (match op with | .both => a && b | .either => a || b)

def negated : Value → Run σ Value
  | .int n => pure (.int (-n))
  | .real x => pure (.real (-x))
  | value => Run.fail (.eval (.negation value.shown))

def inverted (value : Value) : Run σ Value :=
  let refused := Run.fail (.eval (.inversion value.shown))
  match value with
  | .int n => pure (ofBool (n = 0))
  | .real x => pure (ofBool (x == 0.0))
  | .text s =>
    match truthOf s with
    | some flag => pure (.text (truthText !flag))
    | none => refused
  | .buffer _ => refused

def external (env : Env σ) (name : Text) : Run σ Value := do
  let outcome ← Builtin.resolve env name
  if outcome.answer = .notFound then Run.fail (.store (.undefined name))
  if !outcome.ok then
    Run.fail (.eval (.unresolved (Text.orElse outcome.value ("cannot interpret: " ++ name))))
  Run.ofFault outcome.toValue

def evalTerm (env : Env σ) (text : Text) : Run σ Value := do
  let lowered := Text.lower text
  if lowered = "true" ∨ lowered = "false" then return .text lowered
  if let some n := ← Run.ofFault (Number.parseInt text) then return .int n
  if let some x := ← Run.ofFault (parseDouble text) then return .real x
  if let some stored := ← Run.readVariable text then return ← Run.ofFault (Value.classify stored)
  if let some buffer := (← get).buffer? text then return .buffer buffer
  external env text

def evalElement (env : Env σ) (name : Text) (index : Value) : Run σ Value := do
  match index with
  | .int n =>
    let reference := name ++ "[" ++ (← Run.ofFault (Number.integerText n)) ++ "]"
    match ← Run.readVariable reference with
    | some stored => Run.ofFault (Value.classify stored)
    | none => external env reference
  | _ => Run.fail (.eval (.index index.shown name))

/-- The name that `defined` asks about, when its argument is written as a plain name or a quoted
text. -/
def plainName? : Expr → Option Text
  | quoted text _ => some text
  | term text => some text
  | _ => none

def askedName? (name : Text) (args : List Expr) : Option Text :=
  match args with
  | [arg] => if Text.lower name = "defined" then plainName? arg else none
  | _ => none

mutual

/-- The value of an expression; `logical` allows quoted texts outside calls. -/
def eval (env : Env σ) (logical : Bool) : Expr → Run σ Value
  | term text => evalTerm env text
  | element name index => do evalElement env name (← eval env false index)
  | quoted text inCall =>
    if inCall || logical then pure (.text text) else Run.fail (.malformed .strayQuotes)
  | group _ inner => eval env logical inner
  | call name args =>
    match askedName? name args with
    | some asked => Builtin.invoke env name [.text asked]
    | none => do Builtin.invoke env name (← evalAll env logical args)
  | negate operand => do negated (← eval env logical operand)
  | invert operand => do inverted (← eval env logical operand)
  | binary op left right => do
    let a ← eval env logical left
    let b ← eval env logical right
    combine op a b

def evalAll (env : Env σ) (logical : Bool) : List Expr → Run σ (List Value)
  | [] => pure []
  | e :: rest => do
    let value ← eval env logical e
    return value :: (← evalAll env logical rest)

end

def read (text : Text) : Run σ Expr := do
  let e ← Run.ofMalformed (parse text)
  Run.deeper e.callsNeeded (return e)

/-- The value of an expression's text. A number alone keeps its spelling. -/
def valueOf (env : Env σ) (text : Text) : Run σ Value := do
  let text := Text.trim text
  if Number.isNumber text then return .text text
  let lowered := Text.lower text
  if lowered = "true" ∨ lowered = "false" then return .text lowered
  eval env false (← read text)

def truthOfValue (value : Value) (text : Text) : Run σ Bool :=
  let refused := Run.fail (.eval (.condition text))
  match value with
  | .int n => pure (n ≠ 0)
  | .real x => pure (x != 0.0)
  | .text s =>
    match truthOf s with
    | some flag => pure flag
    | none => refused
  | .buffer _ => refused

def condition (env : Env σ) (text : Text) : Run σ Bool := do
  let text := Text.trim text
  match Number.parseDecimal text with
  | some d => return d.toFloat != 0.0
  | none => truthOfValue (← eval env true (← read text)) text

/-- Evaluates a text; script errors become part of the outcome. -/
def evaluate (env : Env σ) (text : Text) (logical : Bool := false) : Run σ Outcome :=
  Run.onError
    (do
      if logical then return Outcome.boolean (← condition env text)
      match ← valueOf env text with
      | .buffer buffer => return Outcome.ofBuffer buffer
      | value => return Outcome.string (← Run.ofFault value.render))
    fun error =>
      return if error.kind = .variableNotFound then Outcome.notFound error.message
        else Outcome.failed error.message

end Expr

end CommandScript
