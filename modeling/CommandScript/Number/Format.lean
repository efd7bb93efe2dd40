import CommandScript.Number.Decimal
import CommandScript.Text.Escape

/-! Formats with directives such as `%5.2f`, applied to one value. A directive has flags, a width, a
precision and a letter that says how the value is shown; a format has to use up its value. -/

namespace CommandScript.Number

inductive Shown where
  | int (n : Int)
  | real (x : Float)
  | text (s : Text)

inductive FormatFailure where
  | invalid
  | fault (fault : Fault)
  deriving DecidableEq, Repr

structure Directive where
  left : Bool := false
  plus : Bool := false
  blank : Bool := false
  alternate : Bool := false
  zeroFill : Bool := false
  width : Option Nat := none
  precision : Option Nat := none
  letter : CodePoint
  deriving DecidableEq, Repr

namespace Directive

def isFlag (c : CodePoint) : Bool := ("-+ #0" : Text).contains c

def isAsciiDigit (c : CodePoint) : Bool := '0' ≤ c && c ≤ '9'

def readNumber (bits : Nat) (s : Text) : Except FormatFailure (Option Nat × Text) :=
  let digits := s.takeWhile isAsciiDigit
  let rest := s.dropWhile isAsciiDigit
  if digits.isEmpty then .ok (none, rest)
  else if Text.digitsToNat digits < twoTo bits then .ok (some (Text.digitsToNat digits), rest)
  else .error .invalid

/-- Why a star fails. It takes the value, which has to be an integer of a number of bits and a sign;
then no value is left for the letter. -/
def starFailure (bits : Nat) : Option Shown → FormatFailure
  | some (.int n) =>
    if -(twoTo bits : Int) ≤ n ∧ n < twoTo bits then .invalid else .fault .integerTooLarge
  | _ => .invalid

def widthBits : Nat := 63

def precisionBits : Nat := 31

def readWidth (unused : Option Shown) : Text → Except FormatFailure (Option Nat × Text)
  | '*' :: _ => .error (starFailure widthBits unused)
  | s => readNumber widthBits s

def readPrecision (unused : Option Shown) : Text → Except FormatFailure (Option Nat × Text)
  | '.' :: '*' :: _ => .error (starFailure precisionBits unused)
  | '.' :: rest => (readNumber precisionBits rest).map fun (n, rest) => (some (n.getD 0), rest)
  | rest => .ok (none, rest)

def dropSize : Text → Text
  | c :: rest => if c = 'h' ∨ c = 'l' ∨ c = 'L' then rest else c :: rest
  | [] => []

/-- Reads the directive after a percent sign, from left to right; the first thing that is wrong
decides how it fails. -/
def read (unused : Option Shown) (s : Text) : Except FormatFailure (Directive × Text) := do
  let flags := s.takeWhile isFlag
  let (width, rest) ← readWidth unused (s.dropWhile isFlag)
  let (precision, rest) ← readPrecision unused rest
  match dropSize rest with
  | [] => throw .invalid
  | letter :: rest =>
    return ({ left := flags.contains '-', plus := flags.contains '+', blank := flags.contains ' ',
              alternate := flags.contains '#', zeroFill := flags.contains '0',
              width, precision, letter }, rest)

def memoryWidth : Nat := twoTo 32

/-- Puts a text into the directive's width. In a number the sign and the mark of its base stand
before the zeros that fill it. -/
def fill (d : Directive) (numeric : Bool) (body : Text) : Text :=
  let (sign, body) : Text × Text :=
    match numeric, body with
    | true, c :: rest =>
      if c = '-' then ([c], rest)
      else if d.plus then ([.char '+'], body)
      else if d.blank then ([.char ' '], body)
      else ([], body)
    | _, _ => ([], body)
  let marked := numeric && d.alternate && ("xXo" : Text).contains d.letter
  let (mark, body) := if marked then (body.take 2, body.drop 2) else ([], body)
  let room := d.width.getD 0 - (sign.length + mark.length + body.length)
  let filling := fun (c : CodePoint) => List.replicate room c
  if d.left then sign ++ mark ++ body ++ filling ' '
  else if numeric && d.zeroFill then sign ++ mark ++ filling '0' ++ body
  else filling ' ' ++ sign ++ mark ++ body

def pad (d : Directive) (numeric : Bool) (body : Text) : Except FormatFailure Text :=
  if d.width.getD 0 < memoryWidth then .ok (d.fill numeric body) else .error (.fault .textLength)

def integerText (d : Directive) (n : Int) : Text :=
  let (base, mark) : Nat × Text :=
    if d.letter = 'o' then (8, "0o")
    else if d.letter = 'x' then (16, "0x")
    else if d.letter = 'X' then (16, "0X")
    else (10, [])
  let digits := Text.inBase base n.natAbs
  let digits := if d.letter = 'X' then digits.map CodePoint.toUpper else digits
  let digits := zeros (d.precision.getD 0 - digits.length) ++ digits
  (if n < 0 then ("-" : Text) else []) ++ (if d.alternate then mark else []) ++ digits

def integer (d : Directive) (n : Int) : Except FormatFailure Text :=
  if (d.precision.getD 0) + 3 < twoTo precisionBits then d.pad true (d.integerText n)
  else .error (.fault .integerTooLarge)

/-- Digits after which every double has only zeros. -/
def mostDigits : Nat := 767

/-- The text of a double in the form of the directive's letter. With an exponent there is one digit
more than the precision says, unless their number has too many bits; then there is one digit. -/
def realText (d : Directive) (x : Float) : Text :=
  let precision := d.precision.getD 6
  let form := d.letter.toLower
  let text :=
    if form = 'f' then render (fixedText precision d.alternate) x
    else if form = 'e' then
      render (exponentForm (if precision + 1 < twoTo precisionBits then precision else 0) d.alternate) x
    else render (generalText (if d.alternate then precision else min precision mostDigits) d.alternate) x
  if d.letter.isUpper then text.map CodePoint.toUpper else text

def clip (d : Directive) (s : Text) : Text :=
  match d.precision with
  | some n => s.take n
  | none => s

def plainText (letter : CodePoint) : Shown → Text
  | .int n => Text.ofInt n
  | .real x => render shortestText x
  | .text s =>
    if letter = 'r' then Text.quotedPrintable s
    else if letter = 'a' then Text.quotedAscii s
    else s

def character : Shown → Except FormatFailure Text
  | .int n => if 0 ≤ n ∧ n < 0x110000 then .ok [CodePoint.ofNat n.toNat] else .error (.fault .codePoint)
  | .real _ => .error .invalid
  | .text s => if s.length = 1 then .ok s else .error .invalid

def apply (d : Directive) (value : Shown) : Except FormatFailure Text :=
  if ("sra" : Text).contains d.letter then d.pad false (d.clip (plainText d.letter value))
  else if d.letter = 'c' then (character value).bind (d.pad false)
  else if ("diuoxX" : Text).contains d.letter then
    match value with
    | .int n => d.integer n
    | .real x =>
      if ("diu" : Text).contains d.letter then
        match truncate x with
        | .ok n => d.integer n
        | .error .nanInteger => .error .invalid
        | .error fault => .error (.fault fault)
      else .error .invalid
    | .text _ => .error .invalid
  else if ("eEfFgG" : Text).contains d.letter then
    match value with
    | .int n =>
      match ofInt? n with
      | some x => d.pad true (d.realText x)
      | none => .error (.fault .integerTooLarge)
    | .real x => d.pad true (d.realText x)
    | .text _ => .error .invalid
  else .error .invalid

end Directive

/-- Applies the rest of a format to a value that may have been used already. Two percent signs side
by side stand for one. -/
def formatFrom (unused : Option Shown) : Text → Except FormatFailure Text
  | [] => if unused.isSome then .error .invalid else .ok []
  | '%' :: '%' :: rest => (formatFrom unused rest).map (.char '%' :: ·)
  | c :: rest =>
    if c = '%' then
      match Directive.read unused rest, unused with
      | .error failure, _ => .error failure
      | .ok _, none => .error .invalid
      | .ok (directive, after), some value =>
        match directive.apply value with
        | .error failure => .error failure
        | .ok text => (formatFrom none (rest.drop (rest.length - after.length))).map (text ++ ·)
    else (formatFrom unused rest).map (c :: ·)
termination_by s => s.length
decreasing_by
  · simp only [List.length_cons]; omega
  · simp only [List.length_drop, List.length_cons]; omega
  · simp

def format (directives : Text) (value : Shown) : Except FormatFailure Text :=
  formatFrom (some value) directives

end CommandScript.Number
