import CommandScript.Time.Calendar
import Mathlib

/-! Days and their numbers. Each number below that of the year 10000 belongs to a day of the calendar, and each day
found for a number has that number again. -/

namespace CommandScript.Time

structure Date.Known (date : Date) : Prop where
  firstYear : 1 ≤ date.year
  lastYear : date.year ≤ 9999
  firstMonth : 1 ≤ date.month
  lastMonth : date.month ≤ 12
  firstDay : 1 ≤ date.day
  lastDay : date.day ≤ monthLength date.year date.month

/-! The month of a day of the year. -/

theorem findMonth_spec {month day : Nat} {lengths : List Nat} (inside : day < lengths.sum) :
    ∃ i d, findMonth month day lengths = (month + i, d + 1) ∧ i < lengths.length ∧ d < (lengths[i]?).getD 0 ∧
      (lengths.take i).sum + d = day := by
  induction lengths generalizing month day with
  | nil => exact absurd inside (Nat.not_lt_zero day)
  | cons length rest ih =>
      rw [findMonth]
      by_cases here : day < length
      · exact ⟨0, day, if_pos here, Nat.zero_lt_succ _, here, Nat.zero_add day⟩
      · have later : day - length < rest.sum := by
          rw [List.sum_cons] at inside
          omega
        obtain ⟨i, d, found, short, within, total⟩ := @ih (month + 1) (day - length) later
        refine ⟨i + 1, d, ?_, Nat.succ_lt_succ short, within, ?_⟩
        · rw [if_neg here, found, Nat.add_assoc, Nat.add_comm 1 i]
        · rw [List.take_succ_cons, List.sum_cons]
          omega

theorem monthLengths_sum (year : Nat) : (monthLengths year).sum = if isLeap year then 366 else 365 := by
  unfold monthLengths
  cases isLeap year <;> rfl

theorem daysBeforeMonth_sum (year month : Nat) :
    daysBeforeMonth year month = ((monthLengths year).take (month - 1)).sum :=
  List.sum_eq_foldl.symm

theorem isLeap_iff (year : Nat) : isLeap year = true ↔ year % 4 = 0 ∧ (year % 100 ≠ 0 ∨ year % 400 = 0) := by
  simp only [isLeap, Bool.and_eq_true, Bool.or_eq_true, decide_eq_true_iff]

/-! The year of a day: whole cycles of 400 years, then centuries, then leap cycles of four years, then years. -/

def yearAt (cycles centuries leapCycles years : Nat) : Nat :=
  400 * cycles + 100 * centuries + 4 * leapCycles + years + 1

section

variable (cycles : Nat) {centuries leapCycles years : Nat} (fewCenturies : centuries ≤ 3)
  (fewLeapCycles : leapCycles ≤ 24) (fewYears : years ≤ 3)
include fewCenturies fewLeapCycles fewYears

theorem isLeap_yearAt :
    isLeap (yearAt cycles centuries leapCycles years) = true ↔ years = 3 ∧ (leapCycles ≠ 24 ∨ centuries = 3) := by
  rw [isLeap_iff, yearAt]
  omega

theorem daysBeforeYear_yearAt :
    daysBeforeYear (yearAt cycles centuries leapCycles years) =
      146097 * cycles + 36524 * centuries + 1461 * leapCycles + 365 * years := by
  simp only [daysBeforeYear, yearAt, Nat.add_sub_cancel]
  omega

end

theorem ofNumber_yearAt (number : Nat) :
    ∃ year day, Date.ofNumber number =
        (let found := findMonth 1 day (monthLengths year)
        ⟨year, found.1, found.2⟩) ∧
      day < (monthLengths year).sum ∧ daysBeforeYear year + day = number ∧ 1 ≤ year ∧
        (number < lastDay → year ≤ 9999) := by
  let cycles := number / 146097
  let inCycle := number % 146097
  let centuries := min 3 (inCycle / 36524)
  let inCentury := inCycle - 36524 * centuries
  let leapCycles := inCentury / 1461
  let inLeapCycle := inCentury % 1461
  let years := min 3 (inLeapCycle / 365)
  let day := inLeapCycle - 365 * years
  have fewCenturies : centuries ≤ 3 := Nat.min_le_left _ _
  have fewLeapCycles : leapCycles ≤ 24 := by omega
  have fewYears : years ≤ 3 := Nat.min_le_left _ _
  have leap := isLeap_yearAt cycles fewCenturies fewLeapCycles fewYears
  have before := daysBeforeYear_yearAt cycles fewCenturies fewLeapCycles fewYears
  refine ⟨yearAt cycles centuries leapCycles years, day, rfl, ?_, ?_, Nat.le_add_left _ _, ?_⟩
  · rw [monthLengths_sum]
    split
    · omega
    · rename_i common
      rw [leap] at common
      omega
  · omega
  · rw [lastDay, yearAt]
    omega

theorem Date.ofNumber_number (number : Nat) : (Date.ofNumber number).number = number := by
  obtain ⟨year, day, place, inside, total, -, -⟩ := ofNumber_yearAt number
  obtain ⟨i, d, found, -, -, sum⟩ := @findMonth_spec 1 day _ inside
  rw [place, found, Date.number, daysBeforeMonth_sum, Nat.add_sub_cancel_left, Nat.add_sub_cancel, Nat.add_assoc, sum]
  exact total

theorem Date.ofNumber_known {number : Nat} (inside : number < lastDay) : (Date.ofNumber number).Known := by
  obtain ⟨year, day, place, ofYear, -, first, last⟩ := ofNumber_yearAt number
  obtain ⟨i, d, found, short, within, -⟩ := @findMonth_spec 1 day _ ofYear
  have months : 1 + i ≤ 12 := Nat.add_comm 1 i ▸ short
  rw [place, found]
  refine ⟨first, last inside, Nat.le_add_right _ _, months, Nat.le_add_left _ _, ?_⟩
  rw [monthLength, Nat.add_sub_cancel_left]
  exact within

example : Date.ofNumber 730178 = ⟨2000, 2, 29⟩ := by decide

/-! Seconds since the start of 1970. -/

theorem Instant.toSeconds_first : Instant.toSeconds ⟨⟨1, 1, 1⟩, 0⟩ = -62135596800 := by decide

theorem Instant.toSeconds_last : Instant.toSeconds ⟨⟨9999, 12, 31⟩, 86399⟩ = 253402300799 := by decide

theorem Instant.ofSeconds?_known {seconds : Int} (first : Instant.toSeconds ⟨⟨1, 1, 1⟩, 0⟩ ≤ seconds)
    (last : seconds ≤ Instant.toSeconds ⟨⟨9999, 12, 31⟩, 86399⟩) :
    ∃ instant, Instant.ofSeconds? seconds = some instant ∧ instant.date.Known ∧ instant.second < 86400 ∧
      instant.toSeconds = seconds := by
  rw [Instant.toSeconds_first] at first
  rw [Instant.toSeconds_last] at last
  have day := Int.fdiv_eq_ediv_of_nonneg seconds (by decide : (0 : Int) ≤ 86400)
  have second := Int.fmod_eq_emod_of_nonneg seconds (by decide : (0 : Int) ≤ 86400)
  have inside : 0 ≤ Int.fdiv seconds 86400 + epochDay ∧ Int.fdiv seconds 86400 + epochDay < lastDay := by
    rw [day, epochDay, lastDay]
    omega
  refine ⟨_, if_pos inside, Date.ofNumber_known (by omega), by simp only [second]; omega, ?_⟩
  simp only [Instant.toSeconds, Date.ofNumber_number]
  omega

end CommandScript.Time
