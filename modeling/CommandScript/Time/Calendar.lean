/-! The calendar: days since a fixed day, and back. Years run from 1 to 9999. -/

namespace CommandScript.Time

def isLeap (year : Nat) : Bool := year % 4 = 0 && (year % 100 ≠ 0 || year % 400 = 0)

def monthLengths (year : Nat) : List Nat :=
  [31, if isLeap year then 29 else 28, 31, 30, 31, 30, 31, 31, 30, 31, 30, 31]

def monthLength (year month : Nat) : Nat := ((monthLengths year)[month - 1]?).getD 0

structure Date where
  year : Nat
  month : Nat
  day : Nat
  deriving DecidableEq, Repr

def daysBeforeYear (year : Nat) : Nat :=
  let past := year - 1
  365 * past + past / 4 - past / 100 + past / 400

def daysBeforeMonth (year month : Nat) : Nat := ((monthLengths year).take (month - 1)).foldl (· + ·) 0

/-- The number of a day, where the first day of year one is day zero. -/
def Date.number (date : Date) : Nat :=
  daysBeforeYear date.year + daysBeforeMonth date.year date.month + (date.day - 1)

def findMonth (month : Nat) (day : Nat) : List Nat → Nat × Nat
  | [] => (month, day + 1)
  | length :: rest => if day < length then (month, day + 1) else findMonth (month + 1) (day - length) rest

def Date.ofNumber (number : Nat) : Date :=
  let centuries4 := number / 146097
  let inCycle := number % 146097
  let centuries := min 3 (inCycle / 36524)
  let inCentury := inCycle - 36524 * centuries
  let leapCycles := inCentury / 1461
  let inLeapCycle := inCentury % 1461
  let years := min 3 (inLeapCycle / 365)
  let day := inLeapCycle - 365 * years
  let year := 400 * centuries4 + 100 * centuries + 4 * leapCycles + years + 1
  let (month, day) := findMonth 1 day (monthLengths year)
  ⟨year, month, day⟩

def epochDay : Nat := 719162

def lastDay : Nat := 3652059

structure Instant where
  date : Date
  second : Nat
  deriving DecidableEq, Repr

def Instant.toSeconds (instant : Instant) : Int :=
  ((instant.date.number : Int) - epochDay) * 86400 + instant.second

def Instant.ofSeconds? (seconds : Int) : Option Instant :=
  let day := Int.fdiv seconds 86400 + epochDay
  if 0 ≤ day ∧ day < lastDay then
    some ⟨Date.ofNumber day.toNat, (Int.fmod seconds 86400).toNat⟩
  else none

end CommandScript.Time
