import CommandScript.Proofs.Integers.Numbers
import Mathlib

/-! Doubles that hold whole numbers. Below `2 ^ 53` every integer is a double, with its magnitude shifted to 53 bits;
sums and products that stay below are exact, and rounding gives the integer back. -/

namespace CommandScript.Number

open Float.Model Float.Model.UnpackedFloat

/-! Shifts and rounding that lose nothing. -/

theorem log2_shift {n : Nat} (positive : 0 < n) (k : Nat) : (n * 2 ^ k).log2 = n.log2 + k := by
  have filled : n * 2 ^ k ≠ 0 := by positivity
  rw [Nat.log2_eq_iff filled]
  have lower := Nat.mul_le_mul_right (2 ^ k) (Nat.log2_self_le positive.ne')
  have upper := Nat.mul_lt_mul_of_pos_right (@Nat.lt_log2_self n) (Nat.two_pow_pos k)
  rw [← pow_add] at lower upper
  exact ⟨lower, by rwa [Nat.add_right_comm] at upper⟩

theorem log2_small {n : Nat} (positive : 0 < n) (small : n < 2 ^ 53) : n.log2 ≤ 52 :=
  Nat.lt_succ_iff.mp ((Nat.log2_lt positive.ne').mpr small)

def mantissa (n : Nat) : Nat := n * 2 ^ (52 - n.log2)

theorem log2_mantissa {n : Nat} (positive : 0 < n) (small : n < 2 ^ 53) : (mantissa n).log2 = 52 := by
  have := log2_small positive small
  rw [mantissa, log2_shift positive]
  omega

theorem mantissa_pos {n : Nat} (positive : 0 < n) : 0 < mantissa n := Nat.mul_pos positive (Nat.two_pow_pos _)

theorem mantissa_bounds {n : Nat} (positive : 0 < n) (small : n < 2 ^ 53) :
    2 ^ 52 ≤ mantissa n ∧ mantissa n < 2 ^ 53 :=
  (Nat.log2_eq_iff (mantissa_pos positive).ne').mp (log2_mantissa positive small)

theorem mantissa_shift {n k : Nat} (enough : 52 - n.log2 ≤ k) :
    mantissa n * 2 ^ (k - (52 - n.log2)) = n * 2 ^ k := by
  rw [mantissa, mul_assoc, ← pow_add, Nat.add_sub_cancel' enough]

theorem decreaseExponent_mantissa {n k : Nat} (small : n.log2 ≤ 52) (enough : 52 - n.log2 ≤ k) :
    decreaseExponent (mantissa n) (n.log2 - 52) (-(k : Int)) = (n * 2 ^ k, -(k : Int)) := by
  have amount : ((n.log2 : Int) - 52 - -(k : Int)).toNat = k - (52 - n.log2) := by omega
  rw [decreaseExponent, amount, Nat.shiftLeft_eq, mantissa_shift enough, Prod.mk.injEq]
  exact ⟨rfl, by omega⟩

theorem shift_exact (m k : Nat) :
    (ExtendedMantissa.ofMantissaAndAccuracy (m * 2 ^ k) .exact) >>> k = ⟨m, false, false⟩ := by
  change Nat.repeat ExtendedMantissa.shiftRightOne k ⟨m * 2 ^ k, false, false⟩ = _
  induction k generalizing m with
  | zero => simp [Nat.repeat]
  | succ k ih =>
      have halves : m * 2 ^ (k + 1) = 2 * m * 2 ^ k := by ring
      rw [Nat.repeat, halves, ih]
      simp [ExtendedMantissa.shiftRightOne]

theorem targetExponent_binary64 (total : Int) :
    Format.binary64.targetExponent total = max (total - 53) (-1074) := rfl

section

variable {n : Nat} (positive : 0 < n) (small : n < 2 ^ 53)
include positive small

theorem targetExponent_whole (k : Nat) :
    Format.binary64.targetExponent (totalExponent (n * 2 ^ k) (-k)) = (n.log2 : Int) - 52 := by
  have bits := log2_small positive small
  rw [targetExponent_binary64, totalExponent, log2_shift positive]
  push_cast
  omega

/-- What has enough bits behind the point loses none when it is brought to 53 bits. -/
theorem shiftToTargetExponent_whole {k : Nat} (enough : 52 ≤ n.log2 + k) :
    shiftToTargetExponent Format.binary64 (n * 2 ^ k) (-k) .exact =
      (⟨mantissa n, false, false⟩, (n.log2 : Int) - 52) := by
  have bits := log2_small positive small
  have amount : ((n.log2 : Int) - 52 - -k).toNat = k - (52 - n.log2) := by omega
  rw [shiftToTargetExponent, targetExponent_whole positive small, shiftToExponent, amount,
    ← @mantissa_shift n k (by omega), shift_exact, Prod.mk.injEq]
  exact ⟨rfl, by omega⟩

/-- Rounding what has enough bits behind the point gives the number with 53 bits. -/
theorem roundWithAccuracy_whole (sign : UnpackedFloat.Sign) {k : Nat} (enough : 52 ≤ n.log2 + k) :
    roundWithAccuracy Format.binary64 sign (n * 2 ^ k) (-k) .exact =
      .finite sign (mantissa n) (n.log2 - 52) (mantissa_pos positive) := by
  have bits := log2_small positive small
  have first := shiftToTargetExponent_whole positive small enough
  have rounded : (ExtendedMantissa.mk (mantissa n) false false).roundedMantissa = mantissa n := rfl
  -- The mantissa is shifted once more in case rounding has made it longer.
  have again : shiftToTargetExponent Format.binary64 (mantissa n) ((n.log2 : Int) - 52) .exact =
      (⟨mantissa n, false, false⟩, (n.log2 : Int) - 52) := by
    have exponent : -((52 - n.log2 : Nat) : Int) = (n.log2 : Int) - 52 := by omega
    have shifted := @shiftToTargetExponent_whole n positive small (52 - n.log2) (by omega)
    rwa [exponent] at shifted
  unfold roundWithAccuracy
  simp only [first, rounded, again, (mantissa_pos positive).ne', ↓reduceDIte]

theorem round_whole (sign : UnpackedFloat.Sign) (k : Nat) :
    UnpackedFloat.round Format.binary64 sign (n * 2 ^ k) (-k) =
      .finite sign (mantissa n) (n.log2 - 52) (mantissa_pos positive) := by
  have bits := log2_small positive small
  have lowered : decreaseExponent (n * 2 ^ k) (-k) ((n.log2 : Int) - 52) =
      (n * 2 ^ (k + (52 - n.log2 - k)), -((k + (52 - n.log2 - k) : Nat) : Int)) := by
    have amount : (-(k : Int) - ((n.log2 : Int) - 52)).toNat = 52 - n.log2 - k := by omega
    rw [decreaseExponent, amount, Nat.shiftLeft_eq, pow_add, Prod.mk.injEq]
    exact ⟨by ring, by omega⟩
  rw [UnpackedFloat.round, targetExponent_whole positive small, lowered]
  exact roundWithAccuracy_whole positive small sign (by omega)

end

/-! The doubles of whole numbers. -/

def signOf (n : Int) : UnpackedFloat.Sign := if n < 0 then .negative else .positive

def unpackedWhole (n : Int) : UnpackedFloat :=
  if zero : n = 0 then .zero .positive
  else .finite (signOf n) (mantissa n.natAbs) (n.natAbs.log2 - 52) (mantissa_pos (Int.natAbs_pos.mpr zero))

def IsWhole (x : Float) (n : Int) : Prop := x.toModel.unpack = unpackedWhole n

theorem unpackedWhole_zero : unpackedWhole 0 = .zero .positive := rfl

theorem unpackedWhole_filled {n : Int} (filled : n ≠ 0) :
    unpackedWhole n =
      .finite (signOf n) (mantissa n.natAbs) (n.natAbs.log2 - 52) (mantissa_pos (Int.natAbs_pos.mpr filled)) :=
  dif_neg filled

theorem signOf_mul (a : Int) {b : Int} (positive : 0 < b) : signOf a * signOf b = signOf (a * b) := by
  unfold signOf
  rw [if_neg (Int.not_lt.mpr positive.le)]
  by_cases negative : a < 0
  · rw [if_pos negative, if_pos (Int.mul_neg_of_neg_of_pos negative positive)]
    rfl
  · rw [if_neg negative, if_neg (Int.not_lt.mpr (Int.mul_nonneg (Int.not_lt.mp negative) positive.le))]
    rfl

theorem mul_whole {a b : Int} (positive : 0 < b) (smallA : a.natAbs < 2 ^ 53) (smallB : b.natAbs < 2 ^ 53)
    (small : (a * b).natAbs < 2 ^ 53) :
    UnpackedFloat.mul Format.binary64 (unpackedWhole a) (unpackedWhole b) = unpackedWhole (a * b) := by
  have filledB : b ≠ 0 := by omega
  by_cases zero : a = 0
  · subst zero
    rw [Int.zero_mul, unpackedWhole_zero, unpackedWhole_filled filledB, signOf, if_neg (by omega)]
    rfl
  · have filled : a * b ≠ 0 := Int.mul_ne_zero zero filledB
    have bitsA := log2_small (Int.natAbs_pos.mpr zero) smallA
    have bitsB := log2_small (Int.natAbs_pos.mpr filledB) smallB
    let k := (52 - a.natAbs.log2) + (52 - b.natAbs.log2)
    have product : mantissa a.natAbs * mantissa b.natAbs = (a * b).natAbs * 2 ^ k := by
      rw [mantissa, mantissa, Int.natAbs_mul, pow_add]
      ring
    have exponent : (a.natAbs.log2 : Int) - 52 + (b.natAbs.log2 - 52) = -(k : Int) := by omega
    have enough : 52 ≤ (a * b).natAbs.log2 + k := by
      have lower := Nat.mul_le_mul (Nat.log2_self_le (Int.natAbs_pos.mpr zero).ne')
        (Nat.log2_self_le (Int.natAbs_pos.mpr filledB).ne')
      rw [← pow_add, ← Int.natAbs_mul] at lower
      have := (Nat.le_log2 (Int.natAbs_pos.mpr filled).ne').mpr lower
      omega
    rw [unpackedWhole_filled zero, unpackedWhole_filled filledB, unpackedWhole_filled filled, UnpackedFloat.mul,
      product,
      exponent, signOf_mul a positive, roundWithAccuracy_whole (Int.natAbs_pos.mpr filled) small _ enough]

theorem normalize_whole {n : Int} (small : n.natAbs < 2 ^ 53) (k : Nat) :
    UnpackedFloat.normalize Format.binary64 (n * 2 ^ k) (-k) .positive = unpackedWhole n := by
  have scale : (0 : Int) < 2 ^ k := by positivity
  rcases lt_trichotomy n 0 with negative | rfl | positive
  · have below : n * 2 ^ k < 0 := Int.mul_neg_of_neg_of_pos negative scale
    have magnitude : (-(n * 2 ^ k)).toNat = n.natAbs * 2 ^ k := by
      zify
      rw [Int.toNat_of_nonneg (by omega), abs_of_neg negative]
      ring
    rw [UnpackedFloat.normalize, compare_lt_iff_lt.mpr below, magnitude, round_whole (by omega) small,
      unpackedWhole_filled negative.ne, signOf, if_pos negative]
  · rw [zero_mul, unpackedWhole_zero]
    rfl
  · have above : 0 < n * 2 ^ k := Int.mul_pos positive scale
    have magnitude : (n * 2 ^ k).toNat = n.natAbs * 2 ^ k := by
      zify
      rw [Int.toNat_of_nonneg above.le, abs_of_pos positive]
    rw [UnpackedFloat.normalize, compare_gt_iff_gt.mpr above, magnitude, round_whole (by omega) small,
      unpackedWhole_filled positive.ne', signOf, if_neg (by omega)]

theorem signOf_apply (n : Int) (m : Nat) : (signOf n).apply ((n.natAbs * m : Nat) : Int) = n * m := by
  unfold signOf
  push_cast
  split
  · rename_i negative
    rw [UnpackedFloat.Sign.apply, abs_of_neg negative]
    ring
  · rename_i positive
    rw [UnpackedFloat.Sign.apply, abs_of_nonneg (by omega)]

theorem add_whole {a b : Int} (smallA : a.natAbs < 2 ^ 53) (smallB : b.natAbs < 2 ^ 53)
    (small : (a + b).natAbs < 2 ^ 53) :
    UnpackedFloat.add Format.binary64 (unpackedWhole a) (unpackedWhole b) = unpackedWhole (a + b) := by
  by_cases zeroA : a = 0
  · subst zeroA
    by_cases zeroB : b = 0
    · subst zeroB
      rfl
    · rw [Int.zero_add, unpackedWhole_zero, unpackedWhole_filled zeroB]
      rfl
  · by_cases zeroB : b = 0
    · subst zeroB
      rw [Int.add_zero, unpackedWhole_zero, unpackedWhole_filled zeroA]
      rfl
    · have bitsA := log2_small (Int.natAbs_pos.mpr zeroA) smallA
      have bitsB := log2_small (Int.natAbs_pos.mpr zeroB) smallB
      -- Both are brought to the smaller exponent, that is to the greater number of bits behind the point.
      let k := max (52 - a.natAbs.log2) (52 - b.natAbs.log2)
      have least : min ((a.natAbs.log2 : Int) - 52) (b.natAbs.log2 - 52) = -(k : Int) := by omega
      have loweredA := @decreaseExponent_mantissa a.natAbs k bitsA (Nat.le_max_left _ _)
      have loweredB := @decreaseExponent_mantissa b.natAbs k bitsB (Nat.le_max_right _ _)
      have total : (signOf a).apply ((a.natAbs * 2 ^ k : Nat) : Int) +
          (signOf b).apply ((b.natAbs * 2 ^ k : Nat) : Int) = (a + b) * 2 ^ k := by
        rw [signOf_apply, signOf_apply]
        push_cast
        ring
      rw [unpackedWhole_filled zeroA, unpackedWhole_filled zeroB, UnpackedFloat.add]
      simp only [least, loweredA, loweredB, total]
      exact normalize_whole small k

/-! The bits of a whole number. -/

theorem toNat_components (sign : UnpackedFloat.Sign) {exponent fraction : Nat} (exponentSmall : exponent < 2 ^ 11)
    (fractionSmall : fraction < 2 ^ 52) :
    (packComponents Format.binary64 sign (BitVec.ofNat 11 exponent) (BitVec.ofNat 52 fraction)).toNat =
      sign.toBitVec.toNat * 2 ^ 63 + exponent * 2 ^ 52 + fraction := by
  change (sign.toBitVec ++ BitVec.ofNat 11 exponent ++ BitVec.ofNat 52 fraction).toNat = _
  rw [BitVec.toNat_append, BitVec.toNat_append, BitVec.toNat_ofNat, BitVec.toNat_ofNat,
    Nat.mod_eq_of_lt exponentSmall, Nat.mod_eq_of_lt fractionSmall, ← Nat.shiftLeft_add_eq_or_of_lt exponentSmall,
    ← Nat.shiftLeft_add_eq_or_of_lt fractionSmall, Nat.shiftLeft_eq, Nat.shiftLeft_eq]
  ring

theorem unpack_components (sign : UnpackedFloat.Sign) {exponent fraction : Nat} (positive : 0 < exponent)
    (finite : exponent < 2047) (fractionSmall : fraction < 2 ^ 52) :
    UnpackedFloat.unpack Format.binary64
        (packComponents Format.binary64 sign (BitVec.ofNat 11 exponent) (BitVec.ofNat 52 fraction)) =
      .finite sign (2 ^ 52 + fraction) (exponent - 1075) (by positivity) := by
  have exponentSmall : exponent < 2 ^ 11 := by omega
  have notLast : BitVec.ofNat 11 exponent ≠ -1#11 := by
    intro same
    have := congrArg BitVec.toNat same
    rw [BitVec.toNat_ofNat, Nat.mod_eq_of_lt exponentSmall] at this
    exact finite.ne this
  have notZero : BitVec.ofNat 11 exponent ≠ 0#11 := by
    intro same
    have := congrArg BitVec.toNat same
    rw [BitVec.toNat_ofNat, Nat.mod_eq_of_lt exponentSmall] at this
    exact positive.ne' this
  have hidden : (1#1 ++ BitVec.ofNat 52 fraction).toNat = 2 ^ 52 + fraction := by
    rw [BitVec.toNat_append, BitVec.toNat_ofNat _ 52, Nat.mod_eq_of_lt fractionSmall,
      ← Nat.shiftLeft_add_eq_or_of_lt fractionSmall]
    rfl
  have signed : UnpackedFloat.Sign.ofBitVec sign.toBitVec = sign := by cases sign <;> rfl
  have biased : ((BitVec.ofNat 11 exponent).toNat : Int) -
      (Format.binary64.exponentBias + Format.binary64.mantissaBitsWithoutImplicit : Nat) = exponent - 1075 := by
    rw [BitVec.toNat_ofNat, Nat.mod_eq_of_lt exponentSmall]
    rfl
  rw [UnpackedFloat.unpack]
  simp only [unpackMantissa_packComponents, unpackExponent_packComponents, unpackSign_packComponents, signed]
  rw [if_neg notLast, if_neg notZero]
  congr 1

theorem pack_whole {n : Int} (filled : n ≠ 0) (small : n.natAbs < 2 ^ 53) :
    UnpackedFloat.pack Format.binary64 (unpackedWhole n) =
      packComponents Format.binary64 (signOf n) (BitVec.ofNat 11 (n.natAbs.log2 + 1023))
        (BitVec.ofNat 52 (mantissa n.natAbs - 2 ^ 52)) := by
  have positive := Int.natAbs_pos.mpr filled
  have bits := log2_small positive small
  have bounds := mantissa_bounds positive small
  have biased : ((n.natAbs.log2 : Int) - 52 + Format.binary64.exponentBias +
      Format.binary64.mantissaBitsWithoutImplicit).toNat = n.natAbs.log2 + 1023 := by
    change ((n.natAbs.log2 : Int) - 52 + 1023 + 52).toNat = _
    omega
  have fraction : BitVec.ofNat 52 (mantissa n.natAbs) = BitVec.ofNat 52 (mantissa n.natAbs - 2 ^ 52) := by
    apply BitVec.eq_of_toNat_eq
    rw [BitVec.toNat_ofNat, BitVec.toNat_ofNat]
    omega
  rw [unpackedWhole_filled filled, UnpackedFloat.pack]
  simp only [biased, log2_mantissa positive small]
  rw [if_neg (by omega), if_pos (show 52 + 1 = Format.binary64.mantissaBits from rfl)]
  exact congrArg _ fraction

theorem unpack_pack_whole {n : Int} (small : n.natAbs < 2 ^ 53) :
    UnpackedFloat.unpack Format.binary64 (UnpackedFloat.pack Format.binary64 (unpackedWhole n)) = unpackedWhole n := by
  by_cases zero : n = 0
  · subst zero
    rw [unpackedWhole_zero]
    rfl
  · have positive := Int.natAbs_pos.mpr zero
    have bits := log2_small positive small
    have bounds := mantissa_bounds positive small
    rw [pack_whole zero small, unpack_components (signOf n) (by omega) (by omega) (by omega), unpackedWhole_filled zero,
      UnpackedFloat.finite.injEq]
    exact ⟨rfl, by omega, by omega⟩

namespace IsWhole

variable {x y : Float} {a b n : Int}

theorem of_unpacked {unpacked : UnpackedFloat} (small : n.natAbs < 2 ^ 53) (whole : unpacked = unpackedWhole n)
    (same : x.toModel = Float.Model.pack unpacked) : IsWhole x n := by
  subst whole
  rw [IsWhole, same]
  exact unpack_pack_whole small

protected theorem mul (first : IsWhole x a) (second : IsWhole y b) (positive : 0 < b) (smallA : a.natAbs < 2 ^ 53)
    (smallB : b.natAbs < 2 ^ 53) (small : (a * b).natAbs < 2 ^ 53) : IsWhole (x * y) (a * b) := by
  apply of_unpacked small (mul_whole positive smallA smallB small)
  rw [← first, ← second]
  rfl

protected theorem add (first : IsWhole x a) (second : IsWhole y b) (smallA : a.natAbs < 2 ^ 53)
    (smallB : b.natAbs < 2 ^ 53) (small : (a + b).natAbs < 2 ^ 53) : IsWhole (x + y) (a + b) := by
  apply of_unpacked small (add_whole smallA smallB small)
  rw [← first, ← second]
  rfl

theorem unique (first : IsWhole x n) (second : IsWhole y n) : x = y := by
  have same : x.toModel.toBits.toBitVec = y.toModel.toBits.toBitVec :=
    (unpack_inj_of_valid x.toModel.valid y.toModel.valid).mp (first.trans second.symm)
  obtain ⟨⟨⟨bitsX⟩, validX⟩⟩ := x
  obtain ⟨⟨⟨bitsY⟩, validY⟩⟩ := y
  cases same
  rfl

theorem toBits (whole : IsWhole x n) :
    x.toBits.toNat = (UnpackedFloat.pack Format.binary64 (unpackedWhole n)).toNat := by
  rw [← whole]
  exact (congrArg BitVec.toNat (pack_unpack_of_valid x.toModel.valid)).symm

end IsWhole

theorem roundDiv_whole (n : Nat) {den : Nat} (positive : 0 < den) : roundDiv (n * den) den = n := by
  simp only [roundDiv, Nat.mul_mod_left, Nat.mul_div_cancel n positive]
  rw [if_pos (by omega)]

theorem ratio_shift (m k : Nat) : ratio m (-(k : Int)) = (m, 2 ^ k) := by
  cases k with
  | zero => exact Prod.ext (Nat.mul_one m) rfl
  | succ k => rfl

theorem overPower_shift (num den k : Nat) : overPower num den (-(k : Int)) = (num * 2 ^ k, den) := by
  cases k with
  | zero => exact Prod.ext (Nat.mul_one num).symm (Nat.mul_one den)
  | succ k => rfl

section

variable {n den : Nat} (positive : 0 < n) (filled : 0 < den)
include positive filled

theorem log2_mul : n.log2 + den.log2 ≤ (n * den).log2 ∧ (n * den).log2 ≤ n.log2 + den.log2 + 1 := by
  have product : n * den ≠ 0 := (Nat.mul_pos positive filled).ne'
  have lower := Nat.mul_le_mul (Nat.log2_self_le positive.ne') (Nat.log2_self_le filled.ne')
  have upper := Nat.mul_lt_mul'' (@Nat.lt_log2_self n) (@Nat.lt_log2_self den)
  rw [← pow_add] at lower upper
  have above := (Nat.log2_lt product).mpr upper
  exact ⟨(Nat.le_log2 product).mpr lower, by omega⟩

/-- The quotient of two numbers without a remainder has the exponent of the whole number, though the quotient of their
own exponents may be one greater. -/
theorem floorLog_whole : floorLog (n * den) den = n.log2 := by
  obtain ⟨lower, upper⟩ := log2_mul positive filled
  have guess : ((n * den).log2 : Int) - den.log2 = Int.ofNat ((n * den).log2 - den.log2) := by
    rw [Int.ofNat_eq_natCast]
    omega
  have below : den * twoTo ((n * den).log2 - den.log2) ≤ n * den ↔ (n * den).log2 - den.log2 ≤ n.log2 := by
    rw [Nat.mul_comm n, Nat.mul_le_mul_left_iff filled, Nat.le_log2 positive.ne']
    exact Iff.rfl
  simp only [floorLog, guess, overPower, below]
  split <;> (rw [Int.ofNat_eq_natCast]; omega)

theorem nearest_whole (small : n < 2 ^ 53) :
    nearest? binary64 (n * den) den = some (mantissa n, (n.log2 : Int) - 52) := by
  have bits := log2_small positive small
  have bounds := mantissa_bounds positive small
  have product : n * den ≠ 0 := (Nat.mul_pos positive filled).ne'
  have q : max binary64.least (floorLog (n * den) den - binary64.precision + 1) = -((52 - n.log2 : Nat) : Int) := by
    rw [floorLog_whole positive filled]
    change max (-1074) ((n.log2 : Int) - 53 + 1) = _
    omega
  have notFull : mantissa n ≠ twoTo binary64.precision := bounds.2.ne
  have rounded : roundDiv (n * den * 2 ^ (52 - n.log2)) den = mantissa n := by
    rw [Nat.mul_right_comm, roundDiv_whole _ filled, mantissa]
  have low : ¬ -((52 - n.log2 : Nat) : Int) > binary64.greatest := by
    change ¬ _ > (971 : Int)
    omega
  simp only [nearest?, product, q, overPower_shift, rounded, notFull, low, ↓reduceIte]
  rw [Option.some.injEq, Prod.mk.injEq]
  exact ⟨rfl, by omega⟩

theorem ofRatio?_whole (small : n < 2 ^ 53) : ofRatio? false (n * den) den = ofInt? n := by
  have alone := @nearest_whole n 1 positive Nat.one_pos small
  rw [Nat.mul_one] at alone
  have sign : decide ((n : Int) < 0) = false := decide_eq_false (by omega)
  rw [ofInt?, sign, Int.natAbs_natCast, ofRatio?, ofRatio?, nearest_whole positive filled small, alone]

end

/-- A whole number is read as its double, however many zeros are written behind its point. -/
theorem ofDecimal_whole {n k : Nat} (small : n < 2 ^ 53) (places : k ≤ 400) :
    ofDecimal false (n * tenTo k) (-(k : Int)) = (ofInt? n).getD (infinity false) := by
  by_cases zero : n = 0
  · subst zero
    rw [Nat.zero_mul]
    rfl
  · have positive : 0 < n := Nat.pos_of_ne_zero zero
    have scale : 0 < tenTo k := Nat.pow_pos (by decide)
    have filled : n * tenTo k ≠ 0 := (Nat.mul_pos positive scale).ne'
    have short : (Text.ofNat (n * tenTo k)).length ≤ 16 + k := by
      apply Numeral.ofNat_length (by omega)
      change n * 10 ^ k < 10 ^ (16 + k)
      rw [pow_add]
      exact Nat.mul_lt_mul_of_pos_right (by omega) scale
    have notTiny : ¬((Text.ofNat (n * tenTo k)).length + -(k : Int) < -400) := by omega
    have notHuge : ¬((Text.ofNat (n * tenTo k)).length + -(k : Int) > 400) := by omega
    rw [ofDecimal.eq_def]
    simp only [filled, notTiny, notHuge, or_self, ↓reduceIte]
    cases k with
    | zero =>
        change (ofRatio? false (n * 1 * 1) 1).getD _ = _
        rw [Nat.mul_one n, ofRatio?_whole positive Nat.one_pos small]
    | succ k =>
        change (ofRatio? false (n * tenTo (k + 1)) (tenTo (k + 1))).getD _ = _
        rw [ofRatio?_whole positive scale small]

theorem packBits_whole {n : Int} (filled : n ≠ 0) (small : n.natAbs < 2 ^ 53) :
    packBits binary64 11 (n < 0) (mantissa n.natAbs) ((n.natAbs.log2 : Int) - 52) =
      (UnpackedFloat.pack Format.binary64 (unpackedWhole n)).toNat := by
  have positive := Int.natAbs_pos.mpr filled
  have bits := log2_small positive small
  have bounds := mantissa_bounds positive small
  have biased : ((n.natAbs.log2 : Int) - 52 - binary64.least + 1).toNat = n.natAbs.log2 + 1023 := by
    change ((n.natAbs.log2 : Int) - 52 - (-1074) + 1).toNat = _
    omega
  have hidden : twoTo (binary64.precision - 1) = 2 ^ 52 := rfl
  have sign : (if decide (n < 0) then twoTo (binary64.precision - 1 + 11) else 0) =
      (signOf n).toBitVec.toNat * 2 ^ 63 := by
    unfold signOf
    by_cases negative : n < 0
    · rw [if_pos (decide_eq_true negative), if_pos negative]
      rfl
    · rw [if_neg (by simpa using negative), if_neg negative]
      rfl
  rw [pack_whole filled small, toNat_components _ (by omega) (by omega)]
  simp only [packBits, hidden, biased, sign]
  rw [if_neg (by omega)]

theorem ofInt?_whole {n : Int} (small : n.natAbs < 2 ^ 53) : ∃ x, ofInt? n = some x ∧ IsWhole x n := by
  by_cases zero : n = 0
  · subst zero
    exact ⟨_, rfl, rfl⟩
  · have nearest := @nearest_whole n.natAbs 1 (Int.natAbs_pos.mpr zero) Nat.one_pos small
    rw [Nat.mul_one] at nearest
    refine ⟨_, by rw [ofInt?, ofRatio?, nearest]; rfl, ?_⟩
    have bits :
      (UInt64.ofNat (packBits binary64 11 (n < 0) (mantissa n.natAbs) ((n.natAbs.log2 : Int) - 52))).toBitVec =
        UnpackedFloat.pack Format.binary64 (unpackedWhole n) := by
      rw [packBits_whole zero small]
      exact (BitVec.ofNat_toNat 64 _).trans (BitVec.setWidth_eq _)
    have unpacked := congrArg (UnpackedFloat.unpack Format.binary64) bits
    rw [unpack_pack_whole small] at unpacked
    exact IsWhole.of_unpacked small unpacked rfl

namespace IsWhole

variable {x : Float} {n : Int}

theorem parts_zero (whole : IsWhole x 0) : parts x = .finite false 0 (-1074) := by
  have bits : x.toBits.toNat = 0 := whole.toBits
  rw [parts, bits]
  rfl

theorem parts_filled (whole : IsWhole x n) (filled : n ≠ 0) (small : n.natAbs < 2 ^ 53) :
    parts x = .finite (n < 0) (mantissa n.natAbs) ((n.natAbs.log2 : Int) - 52) := by
  have positive := Int.natAbs_pos.mpr filled
  have bits := log2_small positive small
  have bounds := mantissa_bounds positive small
  have total := whole.toBits
  rw [pack_whole filled small, toNat_components _ (by omega) (by omega)] at total
  have sign : x.toBits.toNat / twoTo 63 = (signOf n).toBitVec.toNat := by
    change x.toBits.toNat / 2 ^ 63 = _
    omega
  have biased : x.toBits.toNat / twoTo 52 % twoTo 11 = n.natAbs.log2 + 1023 := by
    change x.toBits.toNat / 2 ^ 52 % 2 ^ 11 = _
    omega
  have fraction : x.toBits.toNat % twoTo 52 = mantissa n.natAbs - 2 ^ 52 := by
    change x.toBits.toNat % 2 ^ 52 = _
    omega
  have negative : ((signOf n).toBitVec.toNat = 1) = (n < 0) := by
    unfold signOf
    by_cases negative : n < 0
    · rw [if_pos negative]
      exact propext ⟨fun _ => negative, fun _ => rfl⟩
    · rw [if_neg negative]
      exact propext ⟨fun one => absurd one (by decide), fun below => absurd below negative⟩
  have whole : twoTo 52 + (mantissa n.natAbs - 2 ^ 52) = mantissa n.natAbs := Nat.add_sub_of_le bounds.1
  simp only [parts, sign, biased, fraction, negative, whole]
  rw [if_neg (by omega), if_neg (by omega), Parts.finite.injEq]
  exact ⟨rfl, rfl, by omega⟩

theorem parts_ratio (whole : IsWhole x n) (small : n.natAbs < 2 ^ 53) :
    ∃ m q k, parts x = .finite (n < 0) m q ∧ ratio m q = (n.natAbs * 2 ^ k, 2 ^ k) := by
  by_cases zero : n = 0
  · subst zero
    refine ⟨0, -((1074 : Nat) : Int), 1074, whole.parts_zero, ?_⟩
    rw [ratio_shift, Int.natAbs_zero, Nat.zero_mul]
  · have bits := log2_small (Int.natAbs_pos.mpr zero) small
    have exponent : (n.natAbs.log2 : Int) - 52 = -((52 - n.natAbs.log2 : Nat) : Int) := by omega
    refine ⟨_, _, 52 - n.natAbs.log2, whole.parts_filled zero small, ?_⟩
    rw [exponent, ratio_shift, mantissa]

theorem truncate (whole : IsWhole x n) (small : n.natAbs < 2 ^ 53) : truncate x = .ok n := by
  obtain ⟨m, q, k, finite, quotient⟩ := whole.parts_ratio small
  simp only [Number.truncate, finite, quotient]
  rw [Nat.mul_div_cancel _ (Nat.two_pow_pos k), withSign_natAbs]

theorem roundToInt (whole : IsWhole x n) (small : n.natAbs < 2 ^ 53) : roundToInt x = .ok n := by
  obtain ⟨m, q, k, finite, quotient⟩ := whole.parts_ratio small
  simp only [Number.roundToInt, finite, quotient]
  rw [roundDiv_whole _ (Nat.two_pow_pos k), withSign_natAbs]

theorem isInteger (whole : IsWhole x n) (small : n.natAbs < 2 ^ 53) : isInteger x = true := by
  obtain ⟨m, q, k, finite, quotient⟩ := whole.parts_ratio small
  simp only [Number.isInteger, finite, quotient, Nat.mul_mod_left, decide_true]

end IsWhole

end CommandScript.Number
