import Mathlib.Data.List.Infix

/-! Marks in pairs. An opening and a closing mark are counted along a list that may hold other things too: what
is opened is closed, and so are some marks that were open before, and no mark closes one too many. -/

namespace CommandScript

theorem concat_prefix_cons {α : Type} {first mark : α} {front marks : List α} :
    front ++ [mark] <+: first :: marks ↔
      (front = [] ∧ first = mark) ∨ ∃ more, front = first :: more ∧ more ++ [mark] <+: marks := by
  cases front with
  | nil => simp [List.cons_prefix_cons, eq_comm]
  | cons other more =>
      simp only [List.cons_append, List.cons_prefix_cons, reduceCtorEq, false_and, false_or, List.cons.injEq]
      constructor
      · rintro ⟨rfl, inside⟩
        exact ⟨more, ⟨rfl, rfl⟩, inside⟩
      · rintro ⟨_, ⟨rfl, rfl⟩, inside⟩
        exact ⟨rfl, inside⟩

/-- The list closes all the marks that it opens and `depth` that were open before, and no mark in it closes more than
these. -/
structure Pairs {α : Type} [DecidableEq α] (opening closing : α) (depth : Nat) (marks : List α) : Prop where
  closed : depth + marks.count opening = marks.count closing
  opened : ∀ front, front ++ [closing] <+: marks → front.count closing ≠ depth + front.count opening

namespace Pairs

variable {α : Type} [DecidableEq α] {opening closing : α} {depth : Nat} {marks : List α}

instance : Decidable (Pairs opening closing depth marks) :=
  decidable_of_iff (depth + marks.count opening = marks.count closing ∧
      ∀ front ∈ marks.inits, front ++ [closing] <+: marks → front.count closing ≠ depth + front.count opening) <| by
    constructor
    · rintro ⟨closed, opened⟩
      exact ⟨closed, fun front inside =>
        opened front ((List.mem_inits _ _).mpr ((List.prefix_append ..).trans inside)) inside⟩
    · rintro ⟨closed, opened⟩
      exact ⟨closed, fun front _ => opened front⟩

theorem nil_iff : Pairs opening closing depth [] ↔ depth = 0 := by
  constructor
  · intro pairs
    simpa using pairs.closed
  · rintro rfl
    exact ⟨rfl, by simp⟩

theorem other_iff {mark : α} (noOpening : mark ≠ opening) (noClosing : mark ≠ closing) :
    Pairs opening closing depth (mark :: marks) ↔ Pairs opening closing depth marks := by
  constructor
  · rintro ⟨closed, opened⟩
    refine ⟨by simpa [noOpening, noClosing] using closed, fun front inside => ?_⟩
    have behind := opened (mark :: front) (concat_prefix_cons.mpr (.inr ⟨front, rfl, inside⟩))
    simpa [noOpening, noClosing] using behind
  · rintro ⟨closed, opened⟩
    refine ⟨by simpa [noOpening, noClosing] using closed, fun front inside => ?_⟩
    rcases concat_prefix_cons.mp inside with ⟨-, same⟩ | ⟨more, rfl, behind⟩
    · exact absurd same noClosing
    · simpa [noOpening, noClosing] using opened more behind

theorem opening_iff (apart : opening ≠ closing) :
    Pairs opening closing depth (opening :: marks) ↔ Pairs opening closing (depth + 1) marks := by
  constructor
  · rintro ⟨closed, opened⟩
    refine ⟨?_, fun front inside => ?_⟩
    · simp only [List.count_cons_self, List.count_cons_of_ne apart] at closed
      omega
    · have behind := opened (opening :: front) (concat_prefix_cons.mpr (.inr ⟨front, rfl, inside⟩))
      simp only [List.count_cons_self, List.count_cons_of_ne apart] at behind
      omega
  · rintro ⟨closed, opened⟩
    refine ⟨?_, fun front inside => ?_⟩
    · simp only [List.count_cons_self, List.count_cons_of_ne apart]
      omega
    · rcases concat_prefix_cons.mp inside with ⟨-, same⟩ | ⟨more, rfl, behind⟩
      · exact absurd same apart
      · have later := opened more behind
        simp only [List.count_cons_self, List.count_cons_of_ne apart]
        omega

theorem closing_iff (apart : opening ≠ closing) :
    Pairs opening closing depth (closing :: marks) ↔ ∃ less, depth = less + 1 ∧ Pairs opening closing less marks := by
  constructor
  · rintro ⟨closed, opened⟩
    have positive := opened [] (by simp)
    obtain ⟨less, rfl⟩ : ∃ less, depth = less + 1 := ⟨depth - 1, by simp at positive; omega⟩
    refine ⟨less, rfl, ?_, fun front inside => ?_⟩
    · simp only [List.count_cons_self, List.count_cons_of_ne apart.symm] at closed
      omega
    · have behind := opened (closing :: front) (concat_prefix_cons.mpr (.inr ⟨front, rfl, inside⟩))
      simp only [List.count_cons_self, List.count_cons_of_ne apart.symm] at behind
      omega
  · rintro ⟨less, rfl, closed, opened⟩
    refine ⟨?_, fun front inside => ?_⟩
    · simp only [List.count_cons_self, List.count_cons_of_ne apart.symm]
      omega
    · rcases concat_prefix_cons.mp inside with ⟨rfl, -⟩ | ⟨more, rfl, behind⟩
      · simp
      · have later := opened more behind
        simp only [List.count_cons_self, List.count_cons_of_ne apart.symm]
        omega

theorem append (apart : opening ≠ closing) {outer : Nat} {first second : List α}
    (pairs : Pairs opening closing depth first)
    (others : Pairs opening closing outer second) : Pairs opening closing (depth + outer) (first ++ second) := by
  induction first generalizing depth with
  | nil =>
      obtain rfl := nil_iff.mp pairs
      rwa [Nat.zero_add]
  | cons mark rest ih =>
      rw [List.cons_append]
      by_cases opens : mark = opening
      · subst opens
        rw [opening_iff apart, Nat.add_right_comm]
        exact ih ((opening_iff apart).mp pairs)
      by_cases closes : mark = closing
      · subst closes
        obtain ⟨less, rfl, later⟩ := (closing_iff apart).mp pairs
        exact (closing_iff apart).mpr ⟨less + outer, Nat.add_right_comm .., ih later⟩
      · exact (other_iff opens closes).mpr (ih ((other_iff opens closes).mp pairs))

end Pairs

end CommandScript
