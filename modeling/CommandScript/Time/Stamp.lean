import CommandScript.Number.Literal
import CommandScript.Text.Casing
import CommandScript.Time.Calendar

/-! Written times. A stamp has a date, in one of two layouts, and an optional time of day. -/

namespace CommandScript.Time

def monthNames : List Text :=
  ["Jan", "Feb", "Mar", "Apr", "May", "Jun", "Jul", "Aug", "Sep", "Oct", "Nov", "Dec"]

structure Stamp where
  year : Nat
  month : Nat
  day : Nat
  hour : Nat := 0
  minute : Nat := 0
  seconds : Number.Decimal := ⟨false, 0, 0⟩
  deriving DecidableEq, Repr

def takeDigits? (most : Nat) (s : Text) : Option (Text × Text) :=
  let digits := (s.take most).takeWhile Text.isDecimal
  if digits.isEmpty then none else some (digits, s.drop digits.length)

def readSeconds? (s : Text) : Option (Number.Decimal × Text) := do
  let (whole, rest) ← takeDigits? 2 s
  match rest with
  | '.' :: more =>
    let (fraction, rest) := Number.cutDigits more
    return (⟨false, Text.digitsToNat (whole ++ fraction), -(fraction.length : Int)⟩, rest)
  | _ => return (⟨false, Text.digitsToNat whole, 0⟩, rest)

def readClock? (isGap : CodePoint → Bool) (stamp : Stamp) (s : Text) : Option (Stamp × Text) :=
  if s.head?.any isGap then do
    let (hour, rest) ← takeDigits? 2 (s.dropWhile isGap)
    let ':' :: rest := rest | none
    let (minute, rest) ← takeDigits? 2 rest
    let timed := { stamp with hour := Text.digitsToNat hour, minute := Text.digitsToNat minute }
    match rest with
    | ':' :: more => do
      let (seconds, rest) ← readSeconds? more
      return ({ timed with seconds }, rest)
    | _ => return (timed, rest)
  else some (stamp, s)

def readYear? (s : Text) : Option (Nat × Text) := do
  let (digits, rest) ← takeDigits? 4 s
  guard (digits.length = 4)
  return (Text.digitsToNat digits, rest)

def monthNumber? (name : Text) : Option Nat :=
  ((monthNames.map Text.lower).findIdx? (· = name.map CodePoint.toLower)).map (· + 1)

/-- The layout with the month's name: `2001Feb03 04:05:06.7`. -/
def readNamed? (s : Text) : Option (Option Stamp) := do
  let (year, rest) ← readYear? s
  let name := rest.take 3
  guard (name.length = 3 ∧ name.all CodePoint.isAlpha)
  let (day, rest) ← takeDigits? 2 (rest.drop 3)
  let stamp : Stamp := { year, month := (monthNumber? name).getD 0, day := Text.digitsToNat day }
  let (stamp, rest) ← readClock? Text.isBlank stamp rest
  guard rest.isEmpty
  return (monthNumber? name).map fun _ => stamp

def isDateMark (c : CodePoint) : Bool := c = '/' || c = '-'

/-- The layout in numbers: `2001/02/03 04:05:06.7` or `2001-02-03T04:05:06.7Z`. -/
def readNumeric? (s : Text) : Option Stamp := do
  let (year, rest) ← readYear? s
  let mark :: rest := rest | none
  guard (isDateMark mark)
  let (month, rest) ← takeDigits? 2 rest
  let mark :: rest := rest | none
  guard (isDateMark mark)
  let (day, rest) ← takeDigits? 2 rest
  let stamp : Stamp := { year, month := Text.digitsToNat month, day := Text.digitsToNat day }
  let (stamp, rest) ← readClock? (fun c => Text.isBlank c || c = 'T') stamp rest
  guard (rest = [] ∨ rest = [.char 'Z'])
  return stamp

def readStamp? (s : Text) : Option Stamp :=
  match readNamed? s with
  | some stamp => stamp
  | none => readNumeric? s

namespace Stamp

/-- The fields are those of a day of the calendar and of a time of day; the last minute may have
a leap second. -/
def inRange (stamp : Stamp) : Bool :=
  1 ≤ stamp.month && stamp.month ≤ 12 && 1 ≤ stamp.day &&
    stamp.day ≤ monthLength stamp.year stamp.month &&
    stamp.hour ≤ 23 && stamp.minute ≤ 59 && stamp.seconds.toFloat < 61.0

def minuteInstant (stamp : Stamp) : Instant :=
  ⟨⟨stamp.year, stamp.month, stamp.day⟩, (stamp.hour * 60 + stamp.minute) * 60⟩

def epoch (stamp : Stamp) : Float :=
  (Number.ofInt? stamp.minuteInstant.toSeconds).getD 0.0 + stamp.seconds.toFloat

end Stamp

/-- The seconds since the start of 1970 of a written time. The calendar has no year zero. -/
def parseTime (text : Text) : Except Fault (Option Float) :=
  match (readStamp? (Text.trim text)).filter Stamp.inRange with
  | none => .ok none
  | some stamp => if stamp.year = 0 then .error .yearZero else .ok (some stamp.epoch)

/-- How a time is written: with the month's name or in numbers, and with how many digits of the
second's fraction; without a number of digits only the date is written. -/
structure Style where
  named : Bool
  decimals : Option Nat
  deriving DecidableEq, Repr

def Style.table : List (Text × Style) :=
  [("t", ⟨true, some 3⟩), ("2t", ⟨true, some 0⟩), ("3t", ⟨false, some 1⟩), ("4t", ⟨false, some 3⟩),
   ("5t", ⟨true, none⟩), ("6t", ⟨false, some 2⟩)]

def Style.of? (name : Text) : Option Style := Style.table.lookup name

def Style.scale (style : Style) : Nat := Number.tenTo (style.decimals.getD 0)

def dateText (style : Style) (date : Date) : Text :=
  if style.named then
    Number.padded 4 date.year ++ (monthNames[date.month - 1]?).getD [] ++ Number.padded 2 date.day
  else
    Number.padded 4 date.year ++ "/" ++ Number.padded 2 date.month ++ "/" ++ Number.padded 2 date.day

def clockText (second : Nat) : Text :=
  Number.padded 2 (second / 3600) ++ ":" ++ Number.padded 2 (second / 60 % 60) ++ ":" ++
    Number.padded 2 (second % 60)

def formatTicks (style : Style) (ticks : Int) : Except Fault Text :=
  match Instant.ofSeconds? (Int.fdiv ticks style.scale) with
  | none => .error .dateRange
  | some instant =>
    let date := dateText style instant.date
    let clock := clockText instant.second
    let fraction := (Int.fmod ticks style.scale).toNat
    .ok <|
      match style.decimals with
      | none => date
      | some 0 => date ++ " " ++ clock
      | some decimals => date ++ " " ++ clock ++ "." ++ Number.padded decimals fraction

def formatTime (style : Style) (seconds : Float) : Except Fault Text := do
  let ticks ← Number.roundToInt (seconds * (Number.ofInt? style.scale).getD 1.0)
  formatTicks style ticks

end CommandScript.Time
