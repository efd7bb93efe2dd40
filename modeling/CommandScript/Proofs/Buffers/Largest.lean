import CommandScript.Function.Builtin
import CommandScript.Proofs.Buffers.Magnitudes
import CommandScript.Proofs.Grammar.Tokens
import CommandScript.Proofs.Unfolding

/-! The function `maxabs` of a buffer of integers. It compares absolute values as doubles, so it finds the first largest
one up to the rounding of large integers. -/

namespace CommandScript

namespace Buffer

/-! Buffers of integers. -/

def integers? : Buffer → Option (List Int)
  | int32 values | int64 values => some values
  | float32 _ | float64 _ => none

/-- Integers are within the range of the type of the elements. -/
def Fits : Buffer → Prop
  | int32 values => ∀ n ∈ values, inWidth 32 n = true
  | int64 values => ∀ n ∈ values, inWidth 64 n = true
  | float32 _ | float64 _ => True

theorem mapM_members {ε α β : Type} {f : α → Except ε β} {samples : List α} {values : List β}
    (mapped : samples.mapM f = .ok values) : ∀ value ∈ values, ∃ sample ∈ samples, f sample = .ok value := by
  induction samples generalizing values with
  | nil =>
      cases mapped
      nofun
  | cons sample rest ih =>
      rw [List.mapM_cons] at mapped
      cases first : f sample with
      | error error => simp [first, bind, Except.bind] at mapped
      | ok value =>
          cases others : rest.mapM f with
          | error error => simp [first, others, bind, Except.bind] at mapped
          | ok more =>
              simp only [first, others, bind, Except.bind, pure, Except.pure, Except.ok.injEq] at mapped
              subst mapped
              intro other member
              rcases List.mem_cons.mp member with rfl | later
              · exact ⟨sample, List.mem_cons_self, first⟩
              · obtain ⟨source, inside, given⟩ := ih others other later
                exact ⟨source, List.mem_cons_of_mem _ inside, given⟩

theorem toInteger_fits {bits : Nat} (positive : 0 < bits) {sample : Sample} {n : Int}
    (taken : toInteger bits sample = .ok n) : inWidth bits n = true := by
  cases sample with
  | int m =>
      simp only [toInteger] at taken
      split at taken
      · rename_i fits
        cases taken
        exact fits
      · cases taken
  | real x =>
      obtain ⟨m, -, kept⟩ := bind_eq_ok.mp taken
      split at kept
      · cases kept
        -- A longer integer is cut to its low bits, which stand for an integer of the width.
        have scale : Number.twoTo bits = 2 * Number.twoTo (bits - 1) := by
          obtain ⟨more, rfl⟩ : ∃ more, bits = more + 1 := ⟨bits - 1, by omega⟩
          exact Nat.pow_succ'
        have filled : 0 < Number.twoTo bits := Nat.two_pow_pos bits
        have lower := Int.le_bmod (x := m) filled
        have upper := Int.bmod_lt (x := m) filled
        simp only [inWidth, Bool.and_eq_true, decide_eq_true_eq]
        omega
      · cases kept

theorem ofSamples_fits {type : ElementType} {samples : List Sample} {buffer : Buffer}
    (made : ofSamples type samples = .ok buffer) : buffer.Fits := by
  have fitting {bits : Nat} (positive : 0 < bits) {values : List Int}
    (mapped : samples.mapM (toInteger bits) = .ok values) :
      ∀ n ∈ values, inWidth bits n = true := by
    intro n member
    obtain ⟨sample, -, taken⟩ := mapM_members mapped n member
    exact toInteger_fits positive taken
  cases type with
  | float32 | float64 =>
      obtain ⟨values, -, same⟩ := bind_eq_ok.mp made
      cases same
      trivial
  | int32 | int64 =>
      obtain ⟨values, mapped, same⟩ := bind_eq_ok.mp made
      cases same
      exact fitting (by decide) mapped

/-! The first of the largest elements of a list. -/

def FirstLargest (measures : List Nat) (place : Nat) : Prop :=
  ∃ best, measures[place]? = some best ∧ (∀ (j m : Nat), measures[j]? = some m → m ≤ best) ∧
    ∀ (j m : Nat), j < place → measures[j]? = some m → m < best

theorem firstLargest_singleton (head : Nat) : FirstLargest [head] 0 := by
  refine ⟨head, rfl, fun j m at_j => ?_, fun j m earlier _ => absurd earlier (Nat.not_lt_zero j)⟩
  exact Nat.le_of_eq (List.mem_singleton.mp (List.mem_of_getElem? at_j))

theorem largest_first (rest seen : List Nat) {place : Nat} (found : FirstLargest seen place) :
    FirstLargest (seen ++ rest) (largest seen[place]? place seen.length (rest.map some)) := by
  -- the place is the first largest among those seen so far
  induction rest generalizing seen place with
  | nil => simpa [largest] using found
  | cons m more ih =>
      obtain ⟨best, here, above, before⟩ := found
      have inside : place < seen.length := (List.getElem?_eq_some_iff.mp here).1
      have whole : seen ++ m :: more = (seen ++ [m]) ++ more := by simp
      have longer : (seen ++ [m]).length = seen.length + 1 := by simp
      have member (j other : Nat) (at_j : (seen ++ [m])[j]? = some other) : seen[j]? = some other ∨ other = m := by
        rcases Nat.lt_or_ge j seen.length with old | new
        · exact .inl (by rwa [List.getElem?_append_left old] at at_j)
        · rw [List.getElem?_append_right new] at at_j
          exact .inr (by simpa using List.mem_of_getElem? at_j)
      rw [whole, here, List.map_cons, largest]
      split
      · rename_i less
        have last : (seen ++ [m])[seen.length]? = some m := by simp
        have next := @ih (seen ++ [m]) seen.length ⟨m, last, ?_, ?_⟩
        · rwa [last, longer] at next
        · intro j other at_j
          rcases member j other at_j with old | rfl
          · exact Nat.le_trans (above j other old) less.le
          · exact Nat.le_refl _
        · intro j other earlier at_j
          rw [List.getElem?_append_left earlier] at at_j
          exact Nat.lt_of_le_of_lt (above j other at_j) less
      · rename_i notLess
        have still : (seen ++ [m])[place]? = some best := by rw [List.getElem?_append_left inside, here]
        have next := @ih (seen ++ [m]) place ⟨best, still, ?_, ?_⟩
        · rwa [still, longer] at next
        · intro j other at_j
          rcases member j other at_j with old | rfl
          · exact above j other old
          · exact Nat.not_lt.mp notLess
        · intro j other earlier at_j
          rw [List.getElem?_append_left (by omega)] at at_j
          exact before j other earlier at_j

/-! Places of a window, counted from one. -/

/-- The places of a window whose measure is at least that of every place of the window. -/
def peaks (measure : Int → Nat) (start stop : Int) : Set Int :=
  {place | place ∈ Set.Icc start stop ∧ ∀ other ∈ Set.Icc start stop, measure other ≤ measure place}

/-- A window that is not empty has a first place of the largest measure. -/
theorem peaks_least (measure : Int → Nat) {start stop : Int} (filled : start ≤ stop) :
    ∃ place, IsLeast (peaks measure start stop) place := by
  have window := Set.finite_Icc start stop
  obtain ⟨top, inside, above⟩ := Set.exists_max_image _ measure window ⟨start, le_refl start, filled⟩
  obtain ⟨place, peak, least⟩ :=
    Set.exists_min_image (peaks measure start stop) id (window.subset fun _ peak => peak.1) ⟨top, inside, above⟩
  exact ⟨place, peak, least⟩

/-- Measures that a coarser measure keeps in order have the same first peak, unless the coarser one takes an earlier
place for as large. -/
theorem isLeast_peaks_iff {measure : Int → Nat} {coarse : Nat → Nat} (keeps : Monotone coarse) {start stop place : Int}
    (found : IsLeast (peaks (coarse ∘ measure) start stop) place) :
    IsLeast (peaks measure start stop) place ↔
      ∀ first, IsLeast (peaks measure start stop) first →
        ∀ other ∈ Set.Ico start first, coarse (measure other) ≠ coarse (measure first) := by
  obtain ⟨⟨inside, above⟩, least⟩ := found
  constructor
  · intro here first peak other earlier same
    cases here.unique peak
    have within : other ∈ Set.Icc start stop := ⟨earlier.1, Int.le_trans earlier.2.le inside.2⟩
    have also : other ∈ peaks (coarse ∘ measure) start stop :=
      ⟨within, fun third member => Nat.le_trans (above third member) (Nat.le_of_eq same.symm)⟩
    have := least also
    have := earlier.2
    omega
  · intro apart
    obtain ⟨first, peak⟩ := peaks_least measure (Int.le_trans inside.1 inside.2)
    have coarsePeak : first ∈ peaks (coarse ∘ measure) start stop :=
      ⟨peak.1.1, fun other member => keeps (peak.1.2 other member)⟩
    rcases Int.lt_or_eq_of_le (least coarsePeak) with earlier | rfl
    · have same := Nat.le_antisymm (coarsePeak.2 place inside) (above first peak.1.1)
      exact absurd same (apart first peak place ⟨inside.1, earlier⟩)
    · exact peak

/-! The window of a call. -/

def absoluteAt (values : List Int) (place : Int) : Nat := (values.getD (place - 1).toNat 0).natAbs

theorem absoluteAt_small {values : List Int} {bound : Nat} (small : ∀ n ∈ values, n.natAbs ≤ bound) (place : Int) :
    absoluteAt values place ≤ bound := by
  rw [absoluteAt, List.getD_eq_getElem?_getD]
  cases found : values[(place - 1).toNat]? with
  | none => exact Nat.zero_le bound
  | some n => exact small n (List.mem_of_getElem? found)

section

variable {buffer : Buffer} {values : List Int} (held : buffer.integers? = some values)
include held

theorem size_integers : buffer.size = values.length := by
  cases buffer <;> cases held <;> rfl

theorem Fits.wide (fits : buffer.Fits) : ∀ n ∈ values, inWidth 64 n = true := by
  cases buffer with
  | int32 values =>
      cases held
      intro n member
      have narrow := fits n member
      have halves : ((Number.twoTo (32 - 1) : Nat) : Int) = 2 ^ 31 ∧ ((Number.twoTo (64 - 1) : Nat) : Int) = 2 ^ 63 :=
        ⟨rfl, rfl⟩
      simp only [inWidth, Bool.and_eq_true, decide_eq_true_eq, halves.1, halves.2] at narrow ⊢
      omega
  | int64 values =>
      cases held
      exact fits
  | float32 | float64 => cases held

theorem Fits.small (fits : buffer.Fits) (narrow : buffer.elementType = .int32) : ∀ n ∈ values, n.natAbs ≤ 2 ^ 53 := by
  cases buffer with
  | int32 values =>
      cases held
      intro n member
      have narrow := fits n member
      have half : ((Number.twoTo (32 - 1) : Nat) : Int) = 2 ^ 31 := rfl
      simp only [inWidth, Bool.and_eq_true, decide_eq_true_eq, half] at narrow
      omega
  | int64 _ | float32 _ | float64 _ => cases narrow

theorem magnitudes_integers (fits : buffer.Fits) :
    buffer.magnitudes = (values.map fun n => Number.nearestWhole n.natAbs * 2 ^ 1074).map some := by
  have each : ∀ n ∈ values, integerMagnitude n = some (Number.nearestWhole n.natAbs * 2 ^ 1074) := fun n member =>
    integerMagnitude_fitting (fits.wide held n member)
  cases buffer with
  | int32 _ | int64 _ =>
      cases held
      rw [List.map_map]
      exact List.map_congr_left each
  | float32 | float64 => cases held

theorem maxabs_window (fits : buffer.Fits) {start stop : Int} (low : 1 ≤ start) (filled : start ≤ stop)
    (high : stop ≤ values.length) :
    ∃ place, buffer.maxabs (start - 1) (stop - 1) = .ok (place - 1) ∧
      IsLeast (peaks (Number.nearestWhole ∘ absoluteAt values) start stop) place := by
  obtain ⟨before, rfl⟩ : ∃ before : Nat, start = before + 1 := ⟨(start - 1).toNat, by omega⟩
  obtain ⟨more, rfl⟩ : ∃ more : Nat, stop = before + 1 + more := ⟨(stop - (before + 1)).toNat, by omega⟩
  -- magnitudes are counted in the smallest doubles, so a whole number has a factor that cancels
  let measure : Int → Nat := fun n => Number.nearestWhole n.natAbs * 2 ^ 1074
  let window := ((values.map measure).take (before + more + 1)).drop before
  have first : clamp buffer.size ((before : Int) + 1 - 1) = before := by
    rw [clamp, if_neg (by omega), size_integers held]
    omega
  have last : clamp buffer.size ((before : Int) + 1 + more - 1 + 1) = before + more + 1 := by
    rw [clamp, if_neg (by omega), size_integers held]
    omega
  have cut : (buffer.magnitudes.take (before + more + 1)).drop before = window.map some := by
    rw [magnitudes_integers held fits, ← List.map_take, ← List.map_drop]
  have size : window.length = more + 1 := by
    simp only [window, List.length_drop, List.length_take, List.length_map]
    omega
  have measured (j : Nat) (inside : j ≤ more) :
      window[j]? = some ((Number.nearestWhole ∘ absoluteAt values) (before + 1 + j) * 2 ^ 1074) := by
    have place : ((before : Int) + 1 + j - 1).toNat = before + j := by omega
    have within : before + j < values.length := by omega
    have known : values.getD (before + j) 0 = values[before + j] := by
      rw [List.getD_eq_getElem?_getD, List.getElem?_eq_getElem within, Option.getD_some]
    simp only [window, Function.comp, absoluteAt, place, known]
    rw [List.getElem?_drop, List.getElem?_take_of_lt (by omega), List.getElem?_map, List.getElem?_eq_getElem within,
      Option.map_some]
  obtain ⟨head, rest, whole⟩ := List.exists_cons_of_length_eq_add_one size
  let place := largest (some head) 0 1 (rest.map some)
  have searched : FirstLargest window place := whole ▸ largest_first rest [head] (firstLargest_singleton head)
  obtain ⟨best, found, above, below⟩ := searched
  have inside : place ≤ more := by
    have bound := (List.getElem?_eq_some_iff.mp found).1
    omega
  refine ⟨before + 1 + place, ?_, ⟨⟨by omega, by omega⟩, ?_⟩, ?_⟩
  · simp only [maxabs, first, last, cut, whole, List.map_cons, Except.ok.injEq]
    change (before : Int) + 1 - 1 + place = before + 1 + place - 1
    omega
  · intro other ⟨from_start, to_stop⟩
    obtain ⟨j, rfl⟩ : ∃ j : Nat, other = before + 1 + j := ⟨(other - (before + 1)).toNat, by omega⟩
    have less := above j _ (measured j (by omega))
    rw [measured place inside, Option.some.injEq] at found
    rw [← found] at less
    exact Nat.le_of_mul_le_mul_right less (pow_pos Nat.two_pos 1074)
  · rintro other ⟨⟨from_start, to_stop⟩, peak⟩
    obtain ⟨j, rfl⟩ : ∃ j : Nat, other = before + 1 + j := ⟨(other - (before + 1)).toNat, by omega⟩
    by_contra earlier
    have less := below j _ (by omega) (measured j (by omega))
    rw [measured place inside, Option.some.injEq] at found
    rw [← found] at less
    have least := peak (before + 1 + place) ⟨by omega, by omega⟩
    exact absurd least (Nat.not_le.mpr (Nat.lt_of_mul_lt_mul_right less))

end

end Buffer

namespace Builtin

variable {σ : Type}

open Buffer

section

variable {f : Builtin} {size : Nat} {session : Session σ}

theorem guard_then {α : Type} {refused : Prop} [Decidable refused] {error : ArgumentError}
    {next : Run σ α} {result : EStateM.Result Exit (Session σ) α} (goesOn : next session = result) :
    (if refused then (do let _ ← (f.refuse error : Run σ PUnit); next) else next) session =
      if refused then f.refuse error session else result := by
  split
  · rfl
  · exact goesOn

theorem maxabsWindow_whole :
    f.maxabsWindow size [] session = if size = 0 then f.refuse .startHigh session
      else .ok (0, (size : Int) - 1) session :=
  guard_then rfl

theorem maxabsWindow_from (start : Int) :
    f.maxabsWindow size [.int start] session =
      if start - 1 < 0 then f.refuse .startLow session
      else if start - 1 ≥ size then f.refuse .startHigh session
      else if size = 0 then f.refuse .startHigh session else .ok (start - 1, (size : Int) - 1) session :=
  guard_then (guard_then (guard_then rfl))

theorem maxabsWindow_between (start stop : Int) :
    f.maxabsWindow size [.int start, .int stop] session =
      if start - 1 < 0 then f.refuse .startLow session
      else if start - 1 ≥ size then f.refuse .startHigh session
      else if stop - 1 < start - 1 then f.refuse .endBeforeStart session
      else if stop - 1 ≥ size then f.refuse .endHigh session
      else if size = 0 then f.refuse .startHigh session else .ok (start - 1, stop - 1) session :=
  guard_then (guard_then (guard_then (guard_then (guard_then rfl))))

end

/-- The window of a call is the one that its arguments ask for, or the arguments are refused. -/
theorem maxabsWindow_eq (size : Nat) {bounds : List Int} (few : bounds.length ≤ 2) (session : Session σ) :
    let start := bounds.getD 0 1
    let stop := bounds.getD 1 size
    (1 ≤ start ∧ start ≤ stop ∧ stop ≤ size →
      maxabsWindow .maxabs size (bounds.map .int) session = .ok (start - 1, stop - 1) session) ∧
    (¬(1 ≤ start ∧ start ≤ stop ∧ stop ≤ size) → ∃ error,
      maxabsWindow .maxabs size (bounds.map .int) session = Builtin.refuse .maxabs error session) := by
  match bounds, few with
  | [], _ =>
      simp only [List.getD_nil, List.map_nil, maxabsWindow_whole]
      split_ifs
      · exact ⟨fun within => by omega, fun _ => ⟨_, rfl⟩⟩
      · exact ⟨fun _ => rfl, fun outside => by omega⟩
  | [first], _ =>
      simp only [List.getD_cons_zero, List.getD_cons_succ, List.getD_nil, List.map_cons, List.map_nil,
        maxabsWindow_from]
      split_ifs
      case neg => exact ⟨fun _ => rfl, fun outside => by omega⟩
      all_goals exact ⟨fun within => by omega, fun _ => ⟨_, rfl⟩⟩
  | [first, last], _ =>
      simp only [List.getD_cons_zero, List.getD_cons_succ, List.map_cons, List.map_nil, maxabsWindow_between]
      split_ifs
      case neg => exact ⟨fun _ => rfl, fun outside => by omega⟩
      all_goals exact ⟨fun within => by omega, fun _ => ⟨_, rfl⟩⟩

/-- `maxabs` refuses a window that is empty or reaches outside of the buffer. In any other it finds the first place
whose absolute value is largest as a double. That is the first largest absolute value unless an earlier element becomes
the same double as the largest one, which takes integers of more than 53 bits. -/
theorem maxabs_first_largest (env : Env σ) (session : Session σ) {buffer : Buffer} {values : List Int}
    (held : buffer.integers? = some values) (fits : buffer.Fits) {bounds : List Int} (few : bounds.length ≤ 2) :
    let start := bounds.getD 0 1
    let stop := bounds.getD 1 values.length
    let result := invoke env "maxabs" (.buffer buffer :: bounds.map .int) session
    (¬(1 ≤ start ∧ start ≤ stop ∧ stop ≤ values.length) →
      ∃ error : ScriptError, result = .error (.error error) session ∧ error.kind = .argument) ∧
    (1 ≤ start ∧ start ≤ stop ∧ stop ≤ values.length → ∃ place,
      result = .ok (.int place) session ∧
        IsLeast (peaks (Number.nearestWhole ∘ absoluteAt values) start stop) place ∧
        (IsLeast (peaks (absoluteAt values) start stop) place ↔
          ∀ first, IsLeast (peaks (absoluteAt values) start stop) first → ∀ other ∈ Set.Ico start first,
            Number.nearestWhole (absoluteAt values other) ≠ Number.nearestWhole (absoluteAt values first)) ∧
        (buffer.elementType = .int32 ∨ (∀ n ∈ values, n.natAbs ≤ 2 ^ 53) →
          IsLeast (peaks (absoluteAt values) start stop) place)) := by
  intro start stop result
  have counted : buffer.size = values.length := size_integers held
  have called : result = runMaxabs .maxabs (.buffer buffer :: bounds.map .int) session := rfl
  have ran : result = EStateM.bind (maxabsWindow .maxabs buffer.size (bounds.map .int)) (fun window => do
      return .int ((← Run.ofFault (buffer.maxabs window.1 window.2)) + 1)) session := by
    rw [called]
    have enough : ¬2 < (bounds.map Value.int).length := by
      rw [List.length_map]
      omega
    simp only [runMaxabs, gt_iff_lt, if_neg enough]
    rfl
  obtain ⟨taken, refused⟩ := maxabsWindow_eq buffer.size few session
  rw [counted] at taken refused ran
  constructor
  · intro outside
    obtain ⟨error, same⟩ := refused outside
    rw [ran, EStateM.bind, same]
    exact ⟨_, rfl, rfl⟩
  · intro within
    obtain ⟨place, found, least⟩ := maxabs_window held fits within.1 within.2.1 within.2.2
    have agree := isLeast_peaks_iff (fun _ _ => Number.nearestWhole_mono) least
    refine ⟨place, ?_, least, agree, ?_⟩
    · rw [ran, EStateM.bind, taken within]
      show EStateM.bind (Run.ofFault (buffer.maxabs (start - 1) (stop - 1))) _ session = _
      rw [found]
      show EStateM.Result.ok (Value.int (place - 1 + 1)) session = _
      rw [Int.sub_add_cancel]
    · intro narrow
      have unrounded : Number.nearestWhole ∘ absoluteAt values = absoluteAt values :=
        funext fun other => Number.nearestWhole_small (absoluteAt_small (narrow.elim (Fits.small held fits) id) other)
      rwa [unrounded] at least

/-- Of two neighbours that become the same double the first is found, though the second is larger. -/
theorem maxabs_neighbours :
    let values : List Int := [2 ^ 53, 2 ^ 53 + 1]
    let session : Session Unit := Session.start {} ()
    (int64 values).integers? = some values ∧ (int64 values).Fits ∧ ([] : List Int).length ≤ 2 ∧
      invoke ({} : Env Unit) "maxabs" [.buffer (int64 values)] session = .ok (.int 1) session ∧
        ¬IsLeast (peaks (absoluteAt values) 1 2) 1 := by
  intro values session
  have held : (int64 values).integers? = some values := rfl
  have fits : (int64 values).Fits :=
    ofSamples_fits (show ofSamples .int64 (values.map .int) = .ok (int64 values) from rfl)
  have few : ([] : List Int).length ≤ 2 := by decide
  have within : (1 : Int) ≤ 1 ∧ (1 : Int) ≤ (2 : Nat) ∧ ((2 : Nat) : Int) ≤ (2 : Nat) := by decide
  obtain ⟨place, ran, found, -⟩ := (maxabs_first_largest ({} : Env Unit) session held fits few).2 within
  have least : IsLeast (peaks (Number.nearestWhole ∘ absoluteAt values) 1 2) place := found
  have inside : ∀ other ∈ Set.Icc (1 : Int) 2, other = 1 ∨ other = 2 := fun other ⟨low, high⟩ => by omega
  have same : ∀ other ∈ Set.Icc (1 : Int) 2, (Number.nearestWhole ∘ absoluteAt values) other = 2 ^ 53 := by
    intro other member
    rcases inside other member with rfl | rfl <;> decide +kernel
  have first : place = 1 := by
    have early := least.2 (show (1 : Int) ∈ _ from ⟨⟨by omega, by omega⟩, fun other member => ?_⟩)
    · have low := least.1.1.1
      omega
    · rw [same other member, same 1 ⟨by omega, by omega⟩]
  refine ⟨held, fits, few, first ▸ ran, fun peak => ?_⟩
  have above := peak.1.2 2 ⟨by omega, by omega⟩
  exact absurd above (by decide)

end Builtin

end CommandScript
