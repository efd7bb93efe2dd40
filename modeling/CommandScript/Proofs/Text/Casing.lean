import CommandScript.Text.Casing

/-! Lower case of letters of ASCII, and of the letters that stand for them; white space has none. -/

namespace CommandScript

namespace Text

theorem lower_head (c : CodePoint) (rest : Text) : (lower (c :: rest)).head? = (lower [c]).head? := by
  unfold lower lowerAfter
  by_cases ascii : c.toNat < 128
  · simp [ascii]
  · by_cases dotted : c = '\u0130'
    · simp [dotted]
    · by_cases sigma : c = '\u03a3'
      · simp [sigma, meetsCased]
      · simp [ascii, dotted, sigma]

theorem toLower_eq {c letter : CodePoint} (same : c.toLower = letter) (plain : letter.toNat < 128) :
    c.toNat < 128 := by
  subst same
  cases c with
  | half n => exact plain
  | char c =>
      change c.toLower.toNat < 128 at plain
      unfold Char.toLower at plain
      split at plain
      · rename_i capital
        have upper : c.val ≤ 90 := capital.2
        exact Nat.lt_of_le_of_lt (UInt32.le_iff_toNat_le.mp upper) (by decide)
      · exact plain

theorem lower_standsFor {letter c : CodePoint} (stands : standsFor letter c) (notI : letter ≠ 'i')
    (notS : letter ≠ 's') (notK : letter ≠ 'k') (plain : letter.toNat < 128) :
    c.toNat < 128 ∧ c.toLower = letter := by
  simp only [standsFor, beq_iff_eq, Bool.or_eq_true, Bool.and_eq_true, notI, notS, notK, false_and,
    or_false] at stands
  exact ⟨toLower_eq stands plain, stands⟩

theorem lower_ascii (c : CodePoint) (before rest : Text) (ascii : c.toNat < 128) :
    lowerAfter before (c :: rest) = c.toLower :: lowerAfter (c :: before) rest := by
  simp [lowerAfter, ascii]

theorem lower_standsFor_i {c letter : CodePoint} (stands : standsFor 'i' c) (other : letter ≠ 'i')
    (plain : letter.toNat < 128) : (lower [c]).head? ≠ some letter := by
  have kinds : c.toLower = 'i' ∨ c = '\u0130' ∨ c = '\u0131' := by simpa [standsFor] using stands
  rcases kinds with small | rfl | rfl
  · have ascii := toLower_eq small (by decide)
    simp only [lower, lower_ascii c [] [] ascii, small, List.head?_cons, ne_eq, Option.some.injEq]
    exact other.symm
  · simp only [lower, lowerAfter]
    simpa using other.symm
  · have kept : (lower [.char '\u0131']).head? = some (.char '\u0131') := by decide
    rw [kept]
    rintro ⟨⟩
    revert plain
    decide

theorem lowerAfter_map {s : Text} (ascii : ∀ c ∈ s, c.toNat < 128) (before : Text) :
    lowerAfter before s = s.map CodePoint.toLower := by
  induction s generalizing before with
  | nil => rfl
  | cons c rest ih =>
      rw [lower_ascii c before rest (ascii c (by simp)), ih fun other member => ascii other (by simp [member])]
      rfl

theorem lower_map {s : Text} (ascii : ∀ c ∈ s, c.toNat < 128) : lower s = s.map CodePoint.toLower :=
  lowerAfter_map ascii []

theorem lower_append {s tail : Text} (ascii : ∀ c ∈ tail, c.toNat < 128) :
    tail.map CodePoint.toLower <:+ lower (s ++ tail) := by
  have inner : ∀ before, tail.map CodePoint.toLower <:+ lowerAfter before (s ++ tail) := by
    induction s with
    | nil => exact fun before => lowerAfter_map ascii before ▸ List.suffix_rfl
    | cons c rest ih => exact fun before => (ih (c :: before)).trans (List.suffix_append _ _)
  exact inner []

theorem lowerChar_other {c : CodePoint} (other : ¬c.toNat < 128) :
    128 ≤ (lowerChar c).toNat ∨ lowerChar c = 'k' ∨ lowerChar c = '\x00' := by
  have runs : ∀ run ∈ capitalRuns, 128 ≤ run.2.2.2 ∨ run = (0x212A, 0x212A, 1, 0x6B) := by decide +kernel
  rw [lowerChar, if_neg other]
  split
  · rename_i first last step small found
    have inside := List.find?_some found
    rcases runs _ (List.mem_of_find?_eq_some found) with high | kelvin
    · exact (CodePoint.ofNat_cases (small + (c.toNat - first))).imp
        (fun same => Nat.le_trans (Nat.le_trans high (Nat.le_add_right _ _)) (Nat.le_of_eq same.symm)) .inr
    · obtain ⟨rfl, rfl, rfl, rfl⟩ : first = 0x212A ∧ last = 0x212A ∧ step = 1 ∧ small = 0x6B := by simpa using kelvin
      have same : c.toNat = 0x212A := by
        simp only [Bool.and_eq_true, decide_eq_true_eq] at inside
        omega
      rw [same]
      decide
  · exact .inl (Nat.le_of_not_lt other)

theorem lower_eq_ascii {s lowered : Text} (same : lower s = lowered)
    (plain : ∀ c ∈ lowered, c.toNat < 128 ∧ c ≠ 'k' ∧ c ≠ '\x00') : s.map CodePoint.toLower = lowered := by
  have small : ∀ before, (∀ c ∈ lowerAfter before s, c.toNat < 128 ∧ c ≠ 'k' ∧ c ≠ '\x00') → ∀ c ∈ s,
      c.toNat < 128 := by
    clear same
    induction s with
    | nil => exact fun _ _ c member => absurd member List.not_mem_nil
    | cons c rest ih =>
        intro before inside
        rw [lowerAfter, List.forall_mem_append] at inside
        refine List.forall_mem_cons.mpr ⟨?_, ih _ inside.2⟩
        refine Decidable.byContradiction fun other => ?_
        have first := inside.1
        rw [if_neg other] at first
        split at first
        · exact absurd (first '\u0307' (by simp)).1 (by decide)
        split at first
        · rw [List.forall_mem_singleton] at first
          split at first <;> exact absurd first.1 (by decide)
        · obtain ⟨ascii, notK, notZero⟩ := List.forall_mem_singleton.mp first
          rcases lowerChar_other other with high | kelvin | zero
          · exact absurd ascii (Nat.not_lt.mpr high)
          · exact notK kelvin
          · exact notZero zero
  rw [← same] at plain ⊢
  exact (lower_map (small [] plain)).symm

theorem within_forall {p : CodePoint → Prop} {ranges : List (Nat × Nat)}
    (all : ∀ run ∈ ranges, ∀ n ∈ List.range' run.1 (run.2 + 1 - run.1), p (CodePoint.ofNat n)) {c : CodePoint}
    (inside : within ranges c = true) : p c := by
  simp only [within, List.any_eq_true, Bool.and_eq_true, decide_eq_true_eq] at inside
  obtain ⟨run, member, least, most⟩ := inside
  have known := all run member c.toNat (List.mem_range'_1.mpr ⟨least, by omega⟩)
  rwa [CodePoint.ofNat_toNat] at known

theorem blank_forall {p : CodePoint → Prop}
    (plain : ∀ n : Fin 128, isBlank (CodePoint.ofNat n) = true → p (CodePoint.ofNat n))
    (listed : ∀ run ∈ blankRanges, ∀ n ∈ List.range' run.1 (run.2 + 1 - run.1), p (CodePoint.ofNat n)) {c : CodePoint}
    (blank : isBlank c = true) : p c := by
  by_cases ascii : c.toNat < 128
  · have known := plain ⟨c.toNat, ascii⟩
    rw [CodePoint.ofNat_toNat] at known
    exact known blank
  · rw [isBlank, if_neg ascii] at blank
    exact within_forall listed blank

theorem lower_blank {c : CodePoint} (blank : isBlank c = true) : (lower [c]).head? = some c :=
  blank_forall (p := fun c => (lower [c]).head? = some c) (by decide +kernel) (by decide +kernel) blank

end Text

end CommandScript
