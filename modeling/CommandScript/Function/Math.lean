import CommandScript.Error.Cause
import CommandScript.Number.Double

/-! Functions of real numbers, with the arguments they refuse. -/

namespace CommandScript

inductive UnaryMath where
  | floor
  | ceil
  | fabs
  | sqrt
  | sin
  | cos
  | tan
  | asin
  | acos
  | atan
  | log
  | log10
  | exp
  deriving DecidableEq, Repr

inductive BinaryMath where
  | pow
  | atan2
  deriving DecidableEq, Repr

namespace UnaryMath

def all : List UnaryMath :=
  [floor, ceil, fabs, sqrt, sin, cos, tan, asin, acos, atan, log, log10, exp]

def name : UnaryMath → Text
  | floor => "floor"
  | ceil => "ceil"
  | fabs => "fabs"
  | sqrt => "sqrt"
  | sin => "sin"
  | cos => "cos"
  | tan => "tan"
  | asin => "asin"
  | acos => "acos"
  | atan => "atan"
  | log => "log"
  | log10 => "log10"
  | exp => "exp"

/-- A result that is no number, or infinite without an infinite argument, is refused. -/
def checked (overflow : ArgumentError) (x result : Float) : Except ArgumentError Float :=
  if result.isNaN && !x.isNaN then .error .outOfDomain
  else if result.isInf && x.isFinite then .error overflow
  else .ok result

def whole (n : Except Fault Int) : Except ArgumentError Float :=
  match n with
  | .ok n =>
    match Number.ofInt? n with
    | some x => .ok x
    | none => .error .outOfRange
  | .error .nanInteger => .error .nanInteger
  | .error _ => .error .infiniteInteger

def apply (f : UnaryMath) (x : Float) : Except ArgumentError Float :=
  match f with
  | floor => whole (Number.floorInt x)
  | ceil => whole (Number.ceilInt x)
  | fabs => .ok x.abs
  | sqrt => checked .outOfDomain x x.sqrt
  | sin => checked .outOfDomain x x.sin
  | cos => checked .outOfDomain x x.cos
  | tan => checked .outOfDomain x x.tan
  | asin => checked .outOfDomain x x.asin
  | acos => checked .outOfDomain x x.acos
  | atan => checked .outOfDomain x x.atan
  | log => checked .outOfDomain x x.log
  | log10 => checked .outOfDomain x x.log10
  | exp => checked .outOfRange x x.exp

end UnaryMath

namespace BinaryMath

def all : List BinaryMath := [pow, atan2]

def name : BinaryMath → Text
  | pow => "pow"
  | atan2 => "atan2"

/-- Powers of two finite numbers: a power of zero without a value is out of the domain, one beyond
all doubles out of range. -/
def finitePower (x y : Float) : Except ArgumentError Float :=
  let power := Float.pow x y
  if power.isNaN then .error .outOfDomain
  else if power.isInf then if x == 0.0 then .error .outOfDomain else .error .outOfRange
  else .ok power

def apply (f : BinaryMath) (x y : Float) : Except ArgumentError Float :=
  match f with
  | pow => if x.isFinite && y.isFinite then finitePower x y else .ok (Float.pow x y)
  | atan2 => .ok (Float.atan2 x y)

end BinaryMath

end CommandScript
