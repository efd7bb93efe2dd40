import CommandScript.Buffer
import CommandScript.Proofs.Doubles.Whole

/-! Magnitudes of integers as doubles. A double has 53 bits, so an integer of more bits is rounded to its upper ones.
Rounding keeps the order of magnitudes, but not that one is less than another. -/

namespace CommandScript

namespace Number

def spareBits (n : Nat) : Nat := n.log2 - 52

def nearestWhole (n : Nat) : Nat := roundDiv n (2 ^ spareBits n) * 2 ^ spareBits n

theorem roundDiv_le (num den : Nat) : num / den ≤ roundDiv num den ∧ roundDiv num den ≤ num / den + 1 := by
  simp only [roundDiv]
  split_ifs <;> omega

/-- Rounding a quotient up takes half of the divisor at least, so a number below a multiple is not rounded past it. -/
theorem roundDiv_le_of_le_mul {num den bound : Nat} (positive : 0 < den) (below : num ≤ bound * den) :
    roundDiv num den ≤ bound := by
  rcases Nat.lt_or_ge num (bound * den) with less | equal
  · have quotient : num / den < bound := Nat.div_lt_of_lt_mul (by rwa [Nat.mul_comm] at less)
    have near := (roundDiv_le num den).2
    omega
  · have same : num = bound * den := Nat.le_antisymm below equal
    rw [same, roundDiv_whole bound positive]

theorem le_roundDiv_of_mul_le {num den bound : Nat} (positive : 0 < den) (above : bound * den ≤ num) :
    bound ≤ roundDiv num den :=
  Nat.le_trans ((Nat.le_div_iff_mul_le positive).mpr above) (roundDiv_le num den).1

theorem roundDiv_mono {first second den : Nat} (le : first ≤ second) : roundDiv first den ≤ roundDiv second den := by
  have quotients : first / den ≤ second / den := Nat.div_le_div_right le
  rcases Nat.lt_or_ge (first / den) (second / den) with less | equal
  · have near := (roundDiv_le first den).2
    have above := (roundDiv_le second den).1
    omega
  · have same : first / den = second / den := Nat.le_antisymm quotients equal
    have remainders : first % den ≤ second % den := by
      have whole := Nat.div_add_mod first den
      have other := Nat.div_add_mod second den
      rw [same] at whole
      omega
    simp only [roundDiv, same]
    split_ifs <;> omega

theorem nearestWhole_small {n : Nat} (small : n ≤ 2 ^ 53) : nearestWhole n = n := by
  rcases Nat.lt_or_ge n (2 ^ 53) with less | equal
  · have none : spareBits n = 0 := by
      rcases Nat.eq_zero_or_pos n with rfl | positive
      · rfl
      · exact Nat.sub_eq_zero_of_le (log2_small positive less)
    have alone := roundDiv_whole n Nat.one_pos
    rw [Nat.mul_one] at alone
    rw [nearestWhole, none, Nat.pow_zero, alone, Nat.mul_one]
  · rw [Nat.le_antisymm small equal]
    decide +kernel

/-- A number is rounded to at most the next power of two, and not below the one that it starts with. -/
theorem nearestWhole_bounds {n : Nat} (positive : 0 < n) :
    2 ^ n.log2 ≤ nearestWhole n ∧ nearestWhole n ≤ 2 ^ (n.log2 + 1) := by
  have lower := Nat.log2_self_le positive.ne'
  have upper := @Nat.lt_log2_self n
  have scale : 0 < 2 ^ spareBits n := Nat.two_pow_pos _
  have fits : spareBits n ≤ n.log2 := Nat.sub_le _ _
  have low : 2 ^ n.log2 = 2 ^ (n.log2 - spareBits n) * 2 ^ spareBits n := by
    rw [← pow_add, Nat.sub_add_cancel fits]
  have high : 2 ^ (n.log2 + 1) = 2 ^ (n.log2 + 1 - spareBits n) * 2 ^ spareBits n := by
    rw [← pow_add, Nat.sub_add_cancel (by omega)]
  constructor
  · rw [low] at lower ⊢
    exact Nat.mul_le_mul_right _ (le_roundDiv_of_mul_le scale lower)
  · rw [high] at upper ⊢
    exact Nat.mul_le_mul_right _ (roundDiv_le_of_le_mul scale upper.le)

theorem nearestWhole_mono {first second : Nat} (le : first ≤ second) : nearestWhole first ≤ nearestWhole second := by
  rcases Nat.eq_zero_or_pos first with rfl | positive
  · exact Nat.zero_le _
  · have logs : first.log2 ≤ second.log2 := by
      rw [Nat.le_log2 (by omega)]
      exact Nat.le_trans (Nat.log2_self_le positive.ne') le
    rcases Nat.lt_or_ge first.log2 second.log2 with less | equal
    · calc nearestWhole first ≤ 2 ^ (first.log2 + 1) := (nearestWhole_bounds positive).2
        _ ≤ 2 ^ second.log2 := Nat.pow_le_pow_right Nat.two_pos less
        _ ≤ nearestWhole second := (nearestWhole_bounds (by omega)).1
    · have same : spareBits first = spareBits second := by rw [spareBits, spareBits, Nat.le_antisymm logs equal]
      rw [nearestWhole, nearestWhole, same]
      exact Nat.mul_le_mul_right _ (roundDiv_mono le)

end Number

namespace Buffer

open Number

theorem integerMagnitude_of_nearest {n : Int} {m : Nat} {q : Int}
    (nearest : nearest? binary64 n.natAbs 1 = some (m, q)) :
    integerMagnitude n = some (units m q) := by
  rw [integerMagnitude, nearest]

theorem units_mantissa {n : Nat} (bits : n.log2 ≤ 52) : units (mantissa n) ((n.log2 : Int) - 52) = n * 2 ^ 1074 := by
  have places : ((n.log2 : Int) - 52 + 1074).toNat = 1074 - (52 - n.log2) := by omega
  rw [units, places]
  exact mantissa_shift (by omega)

theorem nearest_large {n : Nat} (large : 52 ≤ n.log2) (range : n.log2 ≤ 1022) :
    ∃ m q, nearest? binary64 n 1 = some (m, q) ∧ units m q = nearestWhole n * 2 ^ 1074 := by
  have positive : 0 < n := by
    rcases Nat.eq_zero_or_pos n with rfl | positive
    · exact absurd large (by decide)
    · exact positive
  have whole := @floorLog_whole n 1 positive Nat.one_pos
  rw [Nat.mul_one] at whole
  have q : max binary64.least (floorLog n 1 - binary64.precision + 1) = Int.ofNat (spareBits n) := by
    rw [whole, Int.ofNat_eq_natCast, spareBits]
    change max (-1074) ((n.log2 : Int) - 53 + 1) = _
    omega
  have high : ¬Int.ofNat (spareBits n) > binary64.greatest ∧ ¬Int.ofNat (spareBits n) + 1 > binary64.greatest := by
    have least : spareBits n ≤ 970 := Nat.sub_le_sub_right range 52
    change ¬((spareBits n : Nat) : Int) > 971 ∧ ¬((spareBits n : Nat) : Int) + 1 > 971
    omega
  have power (k : Nat) : twoTo k = 2 ^ k := rfl
  have scaled : overPower n 1 (Int.ofNat (spareBits n)) = (n, 2 ^ spareBits n) := Prod.ext rfl (Nat.one_mul _)
  simp only [nearest?, positive.ne', if_false, q, scaled]
  by_cases full : roundDiv n (2 ^ spareBits n) = twoTo binary64.precision
  · refine ⟨2 ^ 52, Int.ofNat (spareBits n) + 1, ?_, ?_⟩
    · simp only [full, if_true, high.2, if_false]
      rfl
    · have places : (Int.ofNat (spareBits n) + 1 + 1074).toNat = spareBits n + (1 + 1074) := by
        rw [Int.ofNat_eq_natCast]
        omega
      have top : twoTo binary64.precision = 2 ^ (52 + 1) := rfl
      have sum : 52 + (spareBits n + (1 + 1074)) = 52 + 1 + spareBits n + 1074 := by omega
      rw [units, nearestWhole, full, places, power, top, ← pow_add, ← pow_add, ← pow_add, sum]
  · refine ⟨roundDiv n (2 ^ spareBits n), Int.ofNat (spareBits n), by simp only [full, if_false, high.1], ?_⟩
    have places : (Int.ofNat (spareBits n) + 1074).toNat = spareBits n + 1074 := rfl
    rw [units, nearestWhole, places, power, mul_assoc, ← pow_add]

/-- The magnitude of an integer of sixty-four bits is that of its rounded absolute value. -/
theorem integerMagnitude_fitting {n : Int} (fits : inWidth 64 n = true) :
    integerMagnitude n = some (nearestWhole n.natAbs * 2 ^ 1074) := by
  have half : ((twoTo (64 - 1) : Nat) : Int) = 2 ^ 63 := rfl
  simp only [inWidth, Bool.and_eq_true, decide_eq_true_eq, half] at fits
  rcases Nat.eq_zero_or_pos n.natAbs with zero | positive
  · have nearest : nearest? binary64 n.natAbs 1 = some (0, binary64.least) := by rw [nearest?, if_pos zero]
    rw [integerMagnitude_of_nearest nearest, zero, nearestWhole_small (Nat.zero_le _), units, Nat.zero_mul,
      Nat.zero_mul]
  · rcases Nat.lt_or_ge n.natAbs (2 ^ 53) with small | big
    · have nearest := @nearest_whole n.natAbs 1 positive Nat.one_pos small
      rw [Nat.mul_one] at nearest
      rw [integerMagnitude_of_nearest nearest, units_mantissa (log2_small positive small), nearestWhole_small small.le]
    · have lower : 52 ≤ n.natAbs.log2 := (Nat.le_log2 positive.ne').mpr (by omega)
      have upper : n.natAbs.log2 < 64 := (Nat.log2_lt positive.ne').mpr (by omega)
      obtain ⟨m, q, nearest, same⟩ := nearest_large lower (by omega)
      rw [integerMagnitude_of_nearest nearest, same]

end Buffer

end CommandScript
