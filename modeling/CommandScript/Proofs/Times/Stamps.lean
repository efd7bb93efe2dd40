import CommandScript.Proofs.Doubles.Whole
import CommandScript.Proofs.Integers.Numbers
import CommandScript.Proofs.Times.Calendar

/-! Written times are read back. The fields of a stamp are numbers with a fixed number of digits, so that each reader
takes what its writer put down and leaves what follows. -/

namespace CommandScript

/-! Numbers with a fixed number of digits. -/

theorem Number.padded_length {width n : Nat} (filled : 0 < width) (fits : n < tenTo width) :
    (padded width n).length = width := by
  have short : (Text.ofNat n).length ≤ width := Numeral.ofNat_length filled fits
  rw [padded, zeros, List.length_append, List.length_replicate]
  omega

theorem Number.padded_digit {width n : Nat} {c : CodePoint} (member : c ∈ padded width n) : c.isDigit = true := by
  rcases List.mem_append.mp member with zero | digit
  · rw [List.eq_of_mem_replicate zero]
    rfl
  · exact @Numeral.isDigit (Numeral.ofNat n) _ digit

theorem Number.padded_decimal {width n : Nat} {c : CodePoint} (member : c ∈ padded width n) :
    Text.isDecimal c = true := by
  rw [Text.isDecimal, isDigit_value (padded_digit member)]
  rfl

theorem Number.padded_cons (width n : Nat) : ∃ c rest, padded width n = c :: rest ∧ c.isDigit = true := by
  have filled : padded width n ≠ [] := List.append_ne_nil_of_right_ne_nil _ (Numeral.ofNat n).digits_filled
  obtain ⟨c, rest, same⟩ := List.exists_cons_of_ne_nil filled
  exact ⟨c, rest, same, padded_digit (same ▸ List.mem_cons_self)⟩

theorem Text.digitsToNat_append (first second : Text) :
    digitsToNat (first ++ second) = digitsToNat first * Number.tenTo second.length + digitsToNat second := by
  induction second using List.reverseRecOn with
  | nil => simp [digitsToNat]
  | append_singleton second c ih =>
      have last (digits : Text) : digitsToNat (digits ++ [c]) = 10 * digitsToNat digits + (digitValue? c).getD 0 := by
        rw [digitsToNat, List.foldl_append]
        rfl
      rw [← List.append_assoc, last, last, ih, List.length_append, List.length_singleton]
      change _ = _ * 10 ^ (second.length + 1) + _
      change 10 * (_ * 10 ^ second.length + _) + _ = _
      ring

theorem Text.digitsToNat_zeros (n : Nat) : digitsToNat (Number.zeros n) = 0 := by
  induction n with
  | zero => rfl
  | succ n ih => exact ih

theorem Number.digitsToNat_padded (width n : Nat) : Text.digitsToNat (padded width n) = n := by
  rw [padded, Text.digitsToNat_append, Text.digitsToNat_zeros, Nat.zero_mul, Nat.zero_add]
  exact (Numeral.ofNat n).digitsToNat.trans (Numeral.ofNat_number n)

theorem Number.cutDigits_padded (width n : Nat) : cutDigits (padded width n) = (padded width n, []) :=
  Prod.ext (List.takeWhile_eq_self_iff.mpr fun _ => padded_decimal)
    (List.dropWhile_eq_nil_iff.mpr fun _ => padded_decimal)

namespace Time

open Number (padded tenTo)

theorem takeDigits?_padded {width n : Nat} (filled : 0 < width) (fits : n < tenTo width) (rest : Text) :
    takeDigits? width (padded width n ++ rest) = some (padded width n, rest) := by
  have size := Number.padded_length filled fits
  have taken : ((padded width n ++ rest).take width).takeWhile Text.isDecimal = padded width n := by
    rw [List.take_left' size]
    exact List.takeWhile_eq_self_iff.mpr fun _ => Number.padded_decimal
  have written : (padded width n).isEmpty = false := by
    obtain ⟨c, digits, same, -⟩ := Number.padded_cons width n
    rw [same]
    rfl
  rw [takeDigits?, taken, written, List.drop_left]
  rfl

theorem readYear?_padded {year : Nat} (fits : year < tenTo 4) (rest : Text) :
    readYear? (padded 4 year ++ rest) = some (year, rest) := by
  rw [readYear?, takeDigits?_padded (by decide) fits]
  simp [Number.padded_length (by decide) fits, Number.digitsToNat_padded, guard, pure]

/-! The time of day. -/

def fractionText (decimals : Nat) : Text := if decimals = 0 then [] else .char '.' :: padded decimals 0

def wholeSecond (second decimals : Nat) : Number.Decimal := ⟨false, second * tenTo decimals, -(decimals : Int)⟩

theorem readSeconds?_padded {second : Nat} (fits : second < tenTo 2) (decimals : Nat) :
    readSeconds? (padded 2 second ++ fractionText decimals) = some (wholeSecond second decimals, []) := by
  rw [readSeconds?, takeDigits?_padded (by decide) fits, fractionText]
  by_cases none : decimals = 0
  · subst none
    simp [wholeSecond, Number.digitsToNat_padded, pure]
  · have size : (padded decimals 0).length = decimals :=
      Number.padded_length (Nat.pos_of_ne_zero none) (Nat.pow_pos (by decide))
    rw [if_neg none]
    simp [wholeSecond, Number.cutDigits_padded, Text.digitsToNat_append, Number.digitsToNat_padded, size, pure]

theorem readClock?_clockText {isGap : CodePoint → Bool} (gap : isGap ' ' = true)
    (digits : ∀ c, c.isDigit → isGap c = false) (stamp : Stamp) {second : Nat} (ofDay : second < 86400)
    (decimals : Nat) :
    readClock? isGap stamp (.char ' ' :: (clockText second ++ fractionText decimals)) =
      some ({ stamp with
        hour := second / 3600, minute := second / 60 % 60, seconds := wholeSecond (second % 60) decimals }, []) := by
  have hours : second / 3600 < tenTo 2 := by change _ < 100; omega
  have minutes : second / 60 % 60 < tenTo 2 := by change _ < 100; omega
  have seconds : second % 60 < tenTo 2 := by change _ < 100; omega
  have text : clockText second ++ fractionText decimals =
      padded 2 (second / 3600) ++
        .char ':' :: (padded 2 (second / 60 % 60) ++
          .char ':' :: (padded 2 (second % 60) ++ fractionText decimals)) := by
    simp [clockText]
  have start : (.char ' ' :: (clockText second ++ fractionText decimals)).dropWhile isGap =
      clockText second ++ fractionText decimals := by
    obtain ⟨c, rest, same, digit⟩ := Number.padded_cons 2 (second / 3600)
    rw [List.dropWhile_cons_of_pos gap, text, same]
    exact List.dropWhile_cons_of_neg (by simp [digits c digit])
  rw [readClock?, start, text, takeDigits?_padded (by decide) hours]
  simp [gap, takeDigits?_padded (by decide) minutes, readSeconds?_padded seconds, Number.digitsToNat_padded, pure]

theorem isBlank_digit {c : CodePoint} (digit : c.isDigit = true) : Text.isBlank c = false :=
  (isWordMark_neutral (by simp [isWordMark, CodePoint.isAlphanum, digit])).1

/-! The date. -/

theorem monthNames_read {month : Nat} (first : 1 ≤ month) (last : month ≤ 12) :
    ∃ name, monthNames[month - 1]? = some name ∧ name.length = 3 ∧ (∀ c ∈ name, c.isAlpha = true) ∧
      monthNumber? name = some month := by
  have all : ∀ i < 12, ∃ name ∈ monthNames[i]?, name.length = 3 ∧ name.all CodePoint.isAlpha = true ∧
      monthNumber? name = some (i + 1) := by decide
  obtain ⟨name, found, letters, alphabetic, number⟩ := all (month - 1) (by omega)
  rw [Nat.sub_add_cancel first] at number
  exact ⟨name, found, letters, List.all_eq_true.mp alphabetic, number⟩

theorem monthLength_le (year month : Nat) : monthLength year month ≤ 31 := by
  have all : ∀ length ∈ monthLengths year, length ≤ 31 := by
    unfold monthLengths
    cases isLeap year <;> decide
  rw [monthLength]
  cases found : (monthLengths year)[month - 1]? with
  | none => exact Nat.zero_le 31
  | some length => exact all length (List.mem_of_getElem? found)

theorem Date.Known.fits {date : Date} (known : date.Known) :
    date.year < tenTo 4 ∧ date.month < tenTo 2 ∧ date.day < tenTo 2 := by
  have day := known.lastDay.trans (monthLength_le _ _)
  exact ⟨Nat.lt_succ_of_le known.lastYear, known.lastMonth.trans_lt (by decide), day.trans_lt (by decide)⟩

def stampText (style : Style) (instant : Instant) (decimals : Nat) : Text :=
  dateText style instant.date ++ .char ' ' :: (clockText instant.second ++ fractionText decimals)

def Instant.stamp (instant : Instant) (decimals : Nat) : Stamp where
  year := instant.date.year
  month := instant.date.month
  day := instant.date.day
  hour := instant.second / 3600
  minute := instant.second / 60 % 60
  seconds := wholeSecond (instant.second % 60) decimals

theorem stampText_numeric {style : Style} (numeric : style.named = false) (instant : Instant) (decimals : Nat) :
    stampText style instant decimals =
      padded 4 instant.date.year ++ .char '/' ::
        (padded 2 instant.date.month ++ .char '/' :: (padded 2 instant.date.day ++
        .char ' ' :: (clockText instant.second ++ fractionText decimals))) := by
  simp [stampText, dateText, numeric]

section

variable {instant : Instant} {style : Style} (known : instant.date.Known) (ofDay : instant.second < 86400)
  (decimals : Nat)
include known

theorem readNamed?_numeric (numeric : style.named = false) : readNamed? (stampText style instant decimals) = none := by
  have slash : CodePoint.isAlpha '/' = false := by decide
  rw [stampText_numeric numeric, readNamed?, readYear?_padded known.fits.1]
  simp [slash, guard]

include ofDay

theorem readNumeric?_stampText (numeric : style.named = false) :
    readNumeric? (stampText style instant decimals) = some (instant.stamp decimals) := by
  obtain ⟨yearFits, monthFits, dayFits⟩ := known.fits
  have digits (c : CodePoint) (digit : c.isDigit = true) : (Text.isBlank c || decide (c = 'T')) = false := by
    rw [isBlank_digit digit, Bool.false_or, decide_eq_false_iff_not]
    rintro rfl
    exact absurd digit (by decide)
  have clock := fun stamp => readClock?_clockText (by decide) digits stamp ofDay decimals
  have slash : isDateMark '/' = true := by decide
  rw [stampText_numeric numeric, readNumeric?, readYear?_padded yearFits]
  simp [slash, takeDigits?_padded (by decide) monthFits, takeDigits?_padded (by decide) dayFits, clock, guard, pure,
    Number.digitsToNat_padded, Instant.stamp]

theorem readNamed?_stampText (named : style.named = true) :
    readNamed? (stampText style instant decimals) = some (some (instant.stamp decimals)) := by
  obtain ⟨yearFits, -, dayFits⟩ := known.fits
  obtain ⟨name, found, letters, alphabetic, number⟩ := monthNames_read known.firstMonth known.lastMonth
  have text : stampText style instant decimals =
      padded 4 instant.date.year ++ (name ++ (padded 2 instant.date.day ++
        .char ' ' :: (clockText instant.second ++ fractionText decimals))) := by
    simp [stampText, dateText, named, found]
  have taken (rest : Text) : (name ++ rest).take 3 = name := List.take_left' letters
  have left (rest : Text) : (name ++ rest).drop 3 = rest := List.drop_left' letters
  have clock := fun stamp =>
    @readClock?_clockText Text.isBlank (by decide) (fun _ => isBlank_digit) stamp _ ofDay decimals
  rw [text, readNamed?, readYear?_padded yearFits]
  simp only [Option.bind_eq_bind, Option.bind_some, taken, left, takeDigits?_padded (by decide) dayFits]
  simp [letters, List.all_eq_true.mpr alphabetic, number, clock, guard, pure, Number.digitsToNat_padded, Instant.stamp]

theorem readStamp?_stampText (style : Style) :
    readStamp? (stampText style instant decimals) = some (instant.stamp decimals) := by
  rw [readStamp?]
  by_cases named : style.named = true
  · rw [readNamed?_stampText known ofDay decimals named]
  · have numeric : style.named = false := Bool.eq_false_of_not_eq_true named
    rw [readNamed?_numeric known decimals numeric]
    exact readNumeric?_stampText known ofDay decimals numeric

end

theorem trim_stampText (style : Style) (instant : Instant) (decimals : Nat) :
    Text.trim (stampText style instant decimals) = stampText style instant decimals := by
  have starts : ∃ rest, stampText style instant decimals = padded 4 instant.date.year ++ rest := by
    unfold stampText dateText
    split
    · exact ⟨_, by rw [List.append_assoc, List.append_assoc]⟩
    · exact ⟨_, by rw [List.append_assoc, List.append_assoc, List.append_assoc, List.append_assoc]⟩
  have ends : ∃ before width n, stampText style instant decimals = before ++ padded width n := by
    unfold stampText fractionText
    by_cases none : decimals = 0
    · refine ⟨dateText style instant.date ++ .char ' ' :: (padded 2 (instant.second / 3600) ++ .char ':' ::
        (padded 2 (instant.second / 60 % 60) ++ ([':'] : Text))), 2, instant.second % 60, ?_⟩
      simp [none, clockText]
    · refine ⟨dateText style instant.date ++ .char ' ' :: (clockText instant.second ++ (['.'] : Text)), decimals, 0, ?_⟩
      simp [none]
  apply Text.trim_visible
  · obtain ⟨rest, text⟩ := starts
    obtain ⟨first, more, same, digit⟩ := Number.padded_cons 4 instant.date.year
    rw [text, same]
    rintro c ⟨⟩
    exact isBlank_digit digit
  · obtain ⟨before, width, n, text⟩ := ends
    intro c member
    have last : c ∈ padded width n := by
      obtain ⟨first, more, same, -⟩ := Number.padded_cons width n
      rw [text, same, List.getLast?_append_cons] at member
      rw [same]
      exact List.mem_of_mem_getLast? member
    exact isBlank_digit (Number.padded_digit last)

/-! What a stamp stands for. -/

theorem wholeSecond_toFloat {second decimals : Nat} (ofMinute : second < 60) (few : decimals < 4) :
    Number.ofInt? second = some (wholeSecond second decimals).toFloat := by
  obtain ⟨x, found, -⟩ := @Number.ofInt?_whole second (by omega)
  rw [wholeSecond, Number.Decimal.toFloat, Number.ofDecimal_whole (by omega) (by omega), found]
  rfl

theorem wholeSecond_isWhole {second decimals : Nat} (ofMinute : second < 60) (few : decimals < 4) :
    Number.IsWhole (wholeSecond second decimals).toFloat second := by
  obtain ⟨x, found, whole⟩ := @Number.ofInt?_whole second (by omega)
  rw [wholeSecond_toFloat ofMinute few] at found
  exact Option.some.inj found ▸ whole

theorem wholeSecond_inMinute {second decimals : Nat} (ofMinute : second < 60) (few : decimals < 4) :
    (wholeSecond second decimals).toFloat < 61.0 := by
  have all : ∀ second < 60, ∀ x ∈ Number.ofInt? (second : Nat), x < 61.0 := by decide
  exact all second ofMinute _ (wholeSecond_toFloat ofMinute few)

section

variable {instant : Instant} {decimals : Nat} (ofDay : instant.second < 86400) (few : decimals < 4)

include ofDay few in
theorem Instant.stamp_inRange (known : instant.date.Known) : (instant.stamp decimals).inRange = true := by
  have hour : instant.second / 3600 ≤ 23 := by omega
  have minute : instant.second / 60 % 60 ≤ 59 := by omega
  have seconds := wholeSecond_inMinute (Nat.mod_lt instant.second (by decide : 0 < 60)) few
  simp [Stamp.inRange, Instant.stamp, known.firstMonth, known.lastMonth, known.firstDay, known.lastDay, hour, minute,
    seconds]

include few in
/-- The seconds of an instant are those of its minute and the seconds that are left, and their sum is exact. -/
theorem Instant.stamp_epoch (small : instant.toSeconds.natAbs < 2 ^ 52) :
    Number.IsWhole (instant.stamp decimals).epoch instant.toSeconds := by
  have ofMinute : instant.second % 60 < 60 := Nat.mod_lt _ (by decide)
  have minute : (instant.stamp decimals).minuteInstant.toSeconds = instant.toSeconds - (instant.second % 60 : Nat) := by
    have same : (instant.stamp decimals).minuteInstant.date = instant.date := rfl
    have second : (instant.stamp decimals).minuteInstant.second =
        (instant.second / 3600 * 60 + instant.second / 60 % 60) * 60 := rfl
    rw [Instant.toSeconds, same, second, Instant.toSeconds]
    omega
  obtain ⟨x, found, whole⟩ := @Number.ofInt?_whole (instant.toSeconds - (instant.second % 60 : Nat)) (by omega)
  have sum := whole.add (wholeSecond_isWhole ofMinute few) (by omega) (by omega) (by omega)
  rw [Int.sub_add_cancel] at sum
  rw [Stamp.epoch, minute, found]
  exact sum

end

/-! Times are written in the parts of a second that their style counts in. -/

theorem formatTicks_stampText {style : Style} {decimals : Nat} (shows : style.decimals = some decimals) {n : Int}
    {instant : Instant} (found : Instant.ofSeconds? n = some instant) :
    formatTicks style (n * style.scale) = .ok (stampText style instant decimals) := by
  have scale : (style.scale : Int) ≠ 0 := by
    rw [Style.scale]
    exact_mod_cast (Nat.pow_pos (by decide)).ne'
  rw [formatTicks, Int.mul_fdiv_cancel _ scale, found, Int.mul_fmod_left, shows, stampText, fractionText]
  cases decimals with
  | zero => simp
  | succ more => simp

theorem formatTime_whole {style : Style} {decimals : Nat} (shows : style.decimals = some decimals) (few : decimals < 4)
    {seconds : Float} {n : Int} (whole : Number.IsWhole seconds n) (small : n.natAbs < 2 ^ 39) :
    formatTime style seconds = formatTicks style (n * style.scale) := by
  have scale : style.scale = tenTo decimals := by rw [Style.scale, shows]; rfl
  have positive : 0 < style.scale := scale ▸ Nat.pow_pos (by decide)
  have least : style.scale ≤ 1000 := scale ▸ Number.tenTo_le (Nat.le_of_lt_succ few)
  obtain ⟨factor, found, wholeFactor⟩ := @Number.ofInt?_whole style.scale (by omega)
  have product : (n * style.scale).natAbs < 2 ^ 53 := by
    have := Nat.mul_le_mul small.le least
    rw [Int.natAbs_mul, Int.natAbs_natCast]
    omega
  have scaled := whole.mul wholeFactor (by omega) (by omega) (by omega) product
  rw [formatTime, found, Option.getD_some, scaled.roundToInt product]
  rfl

theorem Style.of?_decimals {name : Text} {style : Style} {decimals : Nat} (known : Style.of? name = some style)
    (shows : style.decimals = some decimals) : decimals < 4 := by
  obtain ⟨before, after, whole, -⟩ := List.lookup_eq_some_iff.mp known
  have member : (name, style) ∈ Style.table := by simp [whole]
  have few : ∀ entry ∈ Style.table, entry.2.decimals.all (· < 4) := by decide
  simpa [shows] using few _ member

theorem parseTime_stampText {instant : Instant} {decimals : Nat} (known : instant.date.Known)
    (ofDay : instant.second < 86400) (few : decimals < 4) (style : Style) :
    parseTime (stampText style instant decimals) = .ok (some (instant.stamp decimals).epoch) := by
  have year : (instant.stamp decimals).year ≠ 0 := (Nat.lt_of_lt_of_le Nat.one_pos known.firstYear).ne'
  rw [parseTime, trim_stampText, readStamp?_stampText known ofDay, Option.filter_some,
    Instant.stamp_inRange ofDay few known]
  simp [year]

/-- Every whole second of the years from 1 to 9999, those before 1970 included, is written and read back by each style
that shows seconds. The second is a double without a fraction, and the double that is read is the same. -/
theorem parseTime_formatTime {name : Text} {style : Style} (known : Style.of? name = some style)
    (shows : style.decimals ≠ none) {n : Int} (first : Instant.toSeconds ⟨⟨1, 1, 1⟩, 0⟩ ≤ n)
    (last : n ≤ Instant.toSeconds ⟨⟨9999, 12, 31⟩, 86399⟩) :
    ∃ seconds text, Number.ofInt? n = some seconds ∧ Number.isInteger seconds = true ∧
      Number.truncate seconds = .ok n ∧ formatTime style seconds = .ok text ∧
      formatTicks style (n * style.scale) = .ok text ∧ parseTime text = .ok (some seconds) := by
  obtain ⟨decimals, shown⟩ := Option.ne_none_iff_exists'.mp shows
  have few := Style.of?_decimals known shown
  obtain ⟨instant, found, ofCalendar, ofDay, rfl⟩ := Instant.ofSeconds?_known first last
  have small : instant.toSeconds.natAbs < 2 ^ 39 := by
    rw [Instant.toSeconds_first] at first
    rw [Instant.toSeconds_last] at last
    omega
  obtain ⟨seconds, nearest, whole⟩ := @Number.ofInt?_whole instant.toSeconds (by omega)
  have ticks := formatTicks_stampText shown found
  have same : (instant.stamp decimals).epoch = seconds := (Instant.stamp_epoch few (by omega)).unique whole
  refine ⟨seconds, _, nearest, whole.isInteger (by omega), whole.truncate (by omega), ?_, ticks, ?_⟩
  · rw [formatTime_whole shown few whole small, ticks]
  · rw [parseTime_stampText ofCalendar ofDay few, same]

/-- The second before 1970. -/
theorem parseTime_formatTime_before :
    Style.of? "4t" = some ⟨false, some 3⟩ ∧
      formatTicks ⟨false, some 3⟩ (-1 * 1000) = .ok "1969/12/31 23:59:59.000" ∧
      ∃ seconds text, Number.ofInt? (-1) = some seconds ∧ Number.isInteger seconds = true ∧
        Number.truncate seconds = .ok (-1) ∧ formatTime ⟨false, some 3⟩ seconds = .ok text ∧
        formatTicks ⟨false, some 3⟩ (-1 * 1000) = .ok text ∧ parseTime text = .ok (some seconds) :=
  have known : Style.of? "4t" = some ⟨false, some 3⟩ := by decide
  ⟨known, by decide, parseTime_formatTime known (by decide) (by decide) (by decide)⟩

end Time

end CommandScript
