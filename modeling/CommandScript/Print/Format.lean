import CommandScript.Number.Format
import CommandScript.Session

/-! Formats that a script applies to a value: the time styles, or a directive whose letter decides
whether the value is taken as an integer, as a double or as text. -/

namespace CommandScript.Print

def timeStyle? : Text → Option (Time.Style × Text)
  | '%' :: 't' :: rest => (Time.Style.of? "t").map (·, rest)
  | '%' :: digit :: 't' :: rest =>
    if '2' ≤ digit ∧ digit ≤ '6' then (Time.Style.of? [digit, 't']).map (·, rest) else none
  | _ => none

def dropPrecision : Text → Text
  | '.' :: rest => if rest.head?.any Text.isDecimal then rest.dropWhile Text.isDecimal else .char '.' :: rest
  | s => s

def isSizeLetter (c : CodePoint) : Bool := c = 'h' || c = 'l' || c = 'L'

/-- The letter of the directive that follows a percent sign. A size letter counts if no other
letter follows it. -/
def letterAfter? (s : Text) : Option CodePoint :=
  let rest := dropPrecision ((s.dropWhile Number.Directive.isFlag).dropWhile Text.isDecimal)
  match (rest.dropWhile isSizeLetter).head? with
  | some c => if c.isAlpha then some c else (rest.takeWhile isSizeLetter).getLast?
  | none => (rest.takeWhile isSizeLetter).getLast?

def letter? : Text → Option CodePoint
  | [] => none
  | c :: rest =>
    if c = '%' then
      match letterAfter? rest with
      | some letter => some letter
      | none => letter? rest
    else letter? rest

/-- The first `%u` of a format means the same as `%d`. -/
def signedDirective : Text → Text
  | '%' :: 'u' :: rest => .char '%' :: .char 'd' :: rest
  | c :: rest => c :: signedDirective rest
  | [] => []

def numberOf (text : Text) (whole : Option Int) : Except Fault (Option Float) :=
  match whole with
  | some n =>
    match Number.ofInt? n with
    | some x => .ok (some x)
    | none => .error .integerTooLarge
  | none => parseDouble text

def integerOf? (whole : Option Int) (real : Option Float) : Option Int :=
  match whole with
  | some n => some n
  | none =>
    match real with
    | some x => if Number.isInteger x then (Number.truncate x).toOption else none
    | none => none

def applyDirectives (command format directives : Text) (value : Number.Shown) : Except Exit Text :=
  match Number.format directives value with
  | .ok text => .ok text
  | .error .invalid => .error (.error { cause := .format command (.invalid format) })
  | .error (.fault fault) => .error (.fault fault)

def numbersOf (text : Text) : Except Fault (Option Int × Option Float) := do
  let whole ← Number.parseInt text
  return (whole, ← numberOf text whole)

def formatValue (text format command : Text) : Except Exit Text :=
  let refuse := fun (error : FormatError) => Except.error (Exit.error { cause := .format command error })
  match numbersOf text with
  | .error fault => .error (.fault fault)
  | .ok (whole, real) =>
    match timeStyle? format with
    | some (style, rest) =>
      match real with
      | none => refuse (.notATime text)
      | some x =>
        match Time.formatTime style x with
        | .ok time => .ok (time ++ rest)
        | .error fault => .error (.fault fault)
    | none =>
      match letter? format with
      | none => refuse (.invalid format)
      | some letter =>
        if ("dioxXuc" : Text).contains letter then
          match integerOf? whole real with
          | none => refuse (.notAnInteger format text)
          | some n => applyDirectives command format (signedDirective format) (.int n)
        else if ("eEfFgG" : Text).contains letter then
          match real with
          | none => refuse (.notANumber format text)
          | some x => applyDirectives command format format (.real x)
        else applyDirectives command format format (.text text)

end CommandScript.Print
