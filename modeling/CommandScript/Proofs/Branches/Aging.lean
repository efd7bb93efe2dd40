import CommandScript.Interpreter

/-! How the conditional stack changes. A chain waits until one of its branches is taken, runs that branch, and is over:
its entry never goes back. Chains are opened only where all others execute, so what lies below an entry that waits or
executes executes itself. -/

namespace CommandScript

namespace Branch

def isExecuting : Branch → Bool
  | ifTrue | elseifTrue | elseTrue => true
  | _ => false

/-- The age of a chain: it waits for a branch that is taken, runs it, or is over. -/
def phase : Branch → Nat
  | ifFalse | elseifFalse => 0
  | ifTrue | elseifTrue | elseTrue => 1
  | elseFalse | skip => 2

theorem isExecuting_iff_phase (branch : Branch) : branch.isExecuting ↔ branch.phase = 1 := by
  cases branch <;> decide

theorem phase_of_isPending {branch : Branch} (waits : branch.isPending) : branch.phase = 0 := by
  cases branch <;> first | rfl | cases waits

theorem isExecuting_eq (branch : Branch) : branch.isExecuting = !branch.isSkipping := by
  cases branch <;> rfl

end Branch

namespace Flow

/-- Every entry below one that executes or waits executes, and the entry of a chain that ends with a branch that is not
taken does not occur. -/
structure Layered (stack : List Branch) : Prop where
  below : stack.Pairwise fun upper lower => upper ≠ .skip → lower.isExecuting
  used : .elseFalse ∉ stack

/-- What a line or the end of a block may make of a stack. -/
inductive Shift : List Branch → List Branch → Prop
  | drops {before after : List Branch} : after <:+ before → Shift before after
  | opens {before : List Branch} (taken : Bool) : (∀ branch ∈ before, branch.isExecuting) →
      Shift before ((if taken then .ifTrue else .ifFalse) :: before)
  /-- A chain is opened in a branch that is passed over. -/
  | skips (before : List Branch) : Shift before (.skip :: before)
  /-- A chain that waits gets to another branch. -/
  | turns {upper branch : Branch} (rest : List Branch) : upper.isPending →
      branch ∈ [.elseifTrue, .elseifFalse, .elseTrue] → Shift (upper :: rest) (branch :: rest)
  | ends (upper : Branch) (rest : List Branch) : Shift (upper :: rest) (.skip :: rest)

variable {before after conditions : List Branch} {line : Text}

theorem Shift.refl (stack : List Branch) : Shift stack stack := .drops (List.suffix_refl stack)

namespace Layered

theorem nil : Layered [] := ⟨.nil, List.not_mem_nil⟩

theorem suffix (layered : Layered before) (drops : after <:+ before) : Layered after :=
  ⟨layered.below.sublist drops.sublist, fun used => layered.used (drops.subset used)⟩

theorem executing_below {upper : Branch} (layered : Layered (upper :: before)) (live : upper ≠ .skip) :
    ∀ branch ∈ before, branch.isExecuting :=
  fun branch member => (List.pairwise_cons.mp layered.below).1 branch member live

theorem executing (layered : Layered conditions) (run : conditions.head?.any Branch.isSkipping = false) :
    ∀ branch ∈ conditions, branch.isExecuting := by
  cases conditions with
  | nil => exact fun _ member => nomatch member
  | cons upper rest =>
      have current : upper.isSkipping = false := run
      intro branch member
      rcases List.mem_cons.mp member with rfl | below
      · rw [Branch.isExecuting_eq, current]
        rfl
      · refine layered.executing_below ?_ branch below
        rintro rfl
        cases current

theorem cons {upper : Branch} (layered : Layered before) (used : upper ≠ .elseFalse)
    (executes : upper ≠ .skip → ∀ branch ∈ before, branch.isExecuting) : Layered (upper :: before) := by
  refine ⟨List.pairwise_cons.mpr ⟨fun branch member live => executes live branch member, layered.below⟩, ?_⟩
  intro member
  rcases List.mem_cons.mp member with same | below
  · exact used same.symm
  · exact layered.used below

end Layered

theorem Shift.layered (shift : Shift before after) (layered : Layered before) : Layered after := by
  cases shift with
  | drops suffix => exact layered.suffix suffix
  | opens taken executes =>
      refine layered.cons ?_ fun _ => executes
      cases taken <;> decide
  | skips => exact layered.cons (by decide) fun live => absurd rfl live
  | turns rest waits kind =>
      refine (layered.suffix (List.suffix_cons _ _)).cons ?_ fun _ => layered.executing_below ?_
      · rintro rfl
        revert kind
        decide
      · rintro rfl
        cases waits
  | ends upper rest =>
      exact (layered.suffix (List.suffix_cons _ _)).cons (by decide) fun live => absurd rfl live

/-- Stacks that differ in their innermost entry only have the same at every place, or these two. -/
theorem reverse_cons_cases {α : Type} {upper branch old new : α} {rest : List α} {place : Nat}
    (was : (upper :: rest).reverse[place]? = some old) (is : (branch :: rest).reverse[place]? = some new) :
    old = new ∨ (old = upper ∧ new = branch) := by
  rw [List.reverse_cons] at was is
  by_cases inside : place < rest.reverse.length
  · rw [List.getElem?_append_left inside] at was is
    exact .inl (Option.some.inj (was.symm.trans is))
  · rw [List.getElem?_append_right (by omega), List.getElem?_singleton, Option.ite_none_right_eq_some] at was is
    exact .inr ⟨(Option.some.inj was.2).symm, (Option.some.inj is.2).symm⟩

theorem Shift.ages (shift : Shift before after) {place : Nat} {old new : Branch}
    (was : before.reverse[place]? = some old) (is : after.reverse[place]? = some new) : old.phase ≤ new.phase := by
  have pushed {upper : Branch} (is : (upper :: before).reverse[place]? = some new) : old.phase ≤ new.phase := by
    rw [List.reverse_cons, List.getElem?_append_left (List.getElem?_eq_some_iff.mp was).1, was] at is
    cases is
    exact Nat.le_refl _
  -- only the innermost entry changes
  have replaced {upper branch : Branch} {rest : List Branch} (older : upper.phase ≤ branch.phase)
      (was : (upper :: rest).reverse[place]? = some old) (is : (branch :: rest).reverse[place]? = some new) :
      old.phase ≤ new.phase := by
    rcases reverse_cons_cases was is with rfl | ⟨rfl, rfl⟩
    · exact Nat.le_refl _
    · exact older
  cases shift with
  | drops suffix =>
      obtain ⟨rest, whole⟩ := List.reverse_prefix.mpr suffix
      rw [← whole, List.getElem?_append_left (List.getElem?_eq_some_iff.mp is).1, is] at was
      cases was
      exact Nat.le_refl _
  | opens taken executes => exact pushed is
  | skips => exact pushed is
  | @turns upper branch rest waits kind =>
      refine replaced ?_ was is
      rw [Branch.phase_of_isPending waits]
      exact Nat.zero_le _
  | ends upper rest => exact replaced (by cases upper <;> decide) was is

theorem replaceTop_turns {branch : Branch} (waits : conditions.head?.any Branch.isPending)
    (kind : branch ∈ [.elseifTrue, .elseifFalse, .elseTrue]) : Shift conditions (replaceTop branch conditions) := by
  cases conditions with
  | nil => cases waits
  | cons upper rest => exact .turns rest waits kind

theorem replaceTop_ends (conditions : List Branch) (filled : conditions ≠ []) :
    Shift conditions (replaceTop .skip conditions) := by
  cases conditions with
  | nil => exact absurd rfl filled
  | cons upper rest => exact .ends upper rest

/-- What is asked for next is a condition that opens a chain where all others execute, or one of a chain that waits. -/
def Asked (word : ConditionWord) (conditions : List Branch) : Prop :=
  match word with
  | .opening => ∀ branch ∈ conditions, branch.isExecuting
  | .continuing => conditions.head?.any Branch.isPending

theorem enter_shifts {word : ConditionWord} (asked : Asked word conditions) (taken : Bool) :
    Shift conditions (enter word taken conditions) := by
  cases word with
  | opening => exact .opens taken asked
  | continuing =>
      refine replaceTop_turns asked ?_
      cases taken <;> decide

theorem settle_shifts_asked {word : ConditionWord} (asked : Asked word conditions) (decided : Except ScriptError Bool) :
    Shift conditions (settle word decided conditions) := by
  cases decided with
  | ok taken => exact enter_shifts asked taken
  | error error =>
      simp only [settle]
      split
      · exact .refl _
      · cases word with
        | opening => exact .refl _
        | continuing =>
            refine replaceTop_ends conditions ?_
            rintro rfl
            cases asked

/-- What a line may make of a stack: it moves it, asks for a condition, or is run where all entries execute. -/
def Verdict.IsLawful (conditions : List Branch) : Verdict → Prop
  | .consumed after => Shift conditions after
  | .runs => ∀ branch ∈ conditions, branch.isExecuting
  | .failed _ => True
  | .asks word _ => Asked word conditions

theorem testLine_lawful (layered : Layered conditions) (leaving : Bool) (word : ConditionWord) (text : Text) :
    (testLine leaving conditions word text).IsLawful conditions := by
  have goesOn (asked : Asked word conditions) : Verdict.IsLawful conditions
      (if leaving then .consumed (enter word true conditions) else .asks word text) := by
    split
    · exact enter_shifts asked true
    · exact asked
  unfold testLine
  dsimp only
  split
  · split
    · exact .skips conditions
    · rename_i runs
      exact goesOn (layered.executing (by simpa using runs))
  · split
    · exact .refl _
    split
    · refine replaceTop_ends conditions ?_
      rintro rfl
      simp at *
    split
    · rename_i waits
      exact goesOn waits
    · trivial

theorem judge_lawful (layered : Layered conditions) (leaving : Bool) (line : Text) :
    (judge leaving conditions line).IsLawful conditions := by
  unfold judge
  dsimp only
  split
  · split
    · rename_i waits
      exact replaceTop_turns waits (by decide)
    split
    · refine replaceTop_ends conditions ?_
      rintro rfl
      simp at *
    split
    · exact .refl _
    · trivial
  split
  · split
    · trivial
    · exact .drops (List.drop_suffix 1 conditions)
  split
  · trivial
  split
  · split
    · exact .refl _
    · rename_i runs
      exact layered.executing (by simpa using runs)
  · split
    · trivial
    · exact testLine_lawful layered leaving _ _

theorem Layered.executing_of_runs (layered : Layered conditions) {leaving : Bool}
    (judged : judge leaving conditions line = .runs) : ∀ branch ∈ conditions, branch.isExecuting := by
  have lawful := judge_lawful layered leaving line
  rw [judged] at lawful
  exact lawful

/-- The line starts a further branch of a chain. -/
def startsBranch (line : Text) : Bool :=
  !isEndif line && (Text.lower line = "else" || conditionWord? line = some .continuing)

/-- The innermost chain gets to a further branch; if it has executed, it does not any more. -/
def Turned (before after : List Branch) : Prop :=
  ∃ old new rest, before = old :: rest ∧ after = new :: rest ∧ (old.isExecuting → new.isExecuting = false)

theorem Turned.waiting (waits : conditions.head?.any Branch.isPending) (branch : Branch) :
    Turned conditions (replaceTop branch conditions) := by
  cases conditions with
  | nil => cases waits
  | cons upper rest =>
      refine ⟨upper, branch, rest, rfl, rfl, fun executes => ?_⟩
      rw [Branch.isExecuting_iff_phase, Branch.phase_of_isPending waits] at executes
      cases executes

theorem Turned.taken (taken : conditions.head?.any Branch.isTaken) :
    Turned conditions (replaceTop .skip conditions) := by
  cases conditions with
  | nil => cases taken
  | cons upper rest => exact ⟨upper, .skip, rest, rfl, rfl, fun _ => rfl⟩

theorem Turned.skipped (skips : conditions.head? = some .skip) : Turned conditions conditions := by
  obtain ⟨rest, rfl⟩ := List.head?_eq_some_iff.mp skips
  exact ⟨.skip, .skip, rest, rfl, rfl, fun _ => rfl⟩

/-- What becomes of a line that starts a further branch: it turns the innermost chain, asks for a condition of a chain
that waits, or is refused. -/
def Verdict.IsTurn (conditions : List Branch) : Verdict → Prop
  | .consumed after => Turned conditions after
  | .runs => False
  | .failed _ => True
  | .asks word _ => word = .continuing ∧ conditions.head?.any Branch.isPending

theorem testLine_turns (leaving : Bool) (conditions : List Branch) (text : Text) :
    (testLine leaving conditions .continuing text).IsTurn conditions := by
  simp only [testLine]
  split
  · rename_i skips
    exact .skipped skips
  split
  · rename_i taken
    exact .taken taken
  split
  · rename_i waits
    split
    · exact .waiting waits _
    · exact ⟨rfl, waits⟩
  · trivial

theorem judge_turns (starts : startsBranch line) (leaving : Bool) (conditions : List Branch) :
    (judge leaving conditions line).IsTurn conditions := by
  simp only [startsBranch, Bool.and_eq_true, Bool.not_eq_true', Bool.or_eq_true, decide_eq_true_eq] at starts
  obtain ⟨notEndif, kind⟩ := starts
  unfold judge
  simp only [notEndif, Bool.false_eq_true, ↓reduceIte]
  split
  · split
    · rename_i waits
      exact .waiting waits _
    split
    · rename_i taken
      exact .taken taken
    split
    · rename_i skips
      exact .skipped skips
    · trivial
  rename_i notElse
  split
  · trivial
  simp only [kind.resolve_left notElse]
  split
  · trivial
  · exact testLine_turns leaving conditions _

end Flow

end CommandScript
