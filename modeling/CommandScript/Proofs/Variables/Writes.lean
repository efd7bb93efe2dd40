import Mathlib.Data.List.Induction
import CommandScript.Store

/-! Reading what was written. A write goes to a global of the name if there is one, and a read prefers the innermost
scope, so a write is seen unless that scope hides the global. Only a variable that is made global while a scope holds
its name is ever hidden. -/

namespace CommandScript

/-- An operation on the variables while no file is about to run. -/
inductive StoreStep where
  | openScope
  | closeScope
  | set (name value : Text)
  | setGlobal (name value : Text)
  | delete (name : Text)
  | publish (name : Text)
  deriving DecidableEq, Repr

namespace StoreStep

def apply (store : Store) : StoreStep → Store
  | openScope => store.pushScope []
  | closeScope => (store.popScope?.map (·.2)).getD store
  | set name value => store.set name value
  | setGlobal name value => store.setGlobal name value
  | delete name => (store.delete name).2
  | publish name => (store.publish name).toOption.getD store

def madeGlobal? : StoreStep → Option Text
  | setGlobal name _ => some name
  | publish name => some (Text.trim name)
  | _ => none

end StoreStep

namespace Store

variable {store : Store} {name : Text}

def after (history : List StoreStep) : Store := history.foldl StoreStep.apply {}

theorem after_concat (history : List StoreStep) (step : StoreStep) :
    after (history ++ [step]) = step.apply (after history) := by
  simp [after, List.foldl_append]

def Holds (store : Store) (name : Text) : Prop := ∃ scope ∈ store.scopes, scope.has name = true

def Hides (store : Store) (name : Text) : Prop :=
  (store.scopes.head?.getD []).has name = true ∧ store.globals.has name = true

instance (store : Store) (name : Text) : Decidable (store.Hides name) := inferInstanceAs (Decidable (_ ∧ _))

theorem Hides.holds (hides : store.Hides name) : store.Holds name := by
  obtain ⟨here, -⟩ := hides
  cases scopes : store.scopes with
  | nil =>
      rw [scopes] at here
      cases here
  | cons scope rest =>
      rw [scopes] at here
      exact ⟨scope, by simp [scopes], here⟩

end Store

namespace Scope

variable (scope : Scope) (name other value : Text)

@[simp] theorem has_set : (scope.set name value).has other = (other = name || scope.has other) := by
  rw [has, get?_set]
  by_cases same : other = name <;> simp [same, has]

theorem has_erase (found : (scope.erase name).has other = true) : scope.has other = true := by
  simp only [has, get?, List.lookup_isSome_iff, erase] at found ⊢
  obtain ⟨entry, member, same⟩ := found
  exact ⟨entry, (List.mem_filter.mp member).1, same⟩

end Scope

namespace Store

variable {store : Store} {name : Text}

theorem updateInnermost_scopes_length (f : Scope → Scope) :
    (store.updateInnermost f).scopes.length = store.scopes.length := by
  unfold updateInnermost
  split <;> simp [*]

theorem set_scopes_length (name value : Text) : (store.set name value).scopes.length = store.scopes.length := by
  unfold set
  split
  · rfl
  split
  · rfl
  · exact updateInnermost_scopes_length _

def Apart (name : Text) (store : Store) : Prop := store.globals.has name = true → ¬store.Holds name

theorem set_cases (direct : store.redirected = false) (name value : Text) :
    (store.globals.has name = true ∧ store.set name value = store.setGlobal name value) ∨
      (store.globals.has name = false ∧ store.set name value = store.updateInnermost (·.set name value)) := by
  cases global : store.globals.has name with
  | true => exact .inl ⟨rfl, by simp [set, global]⟩
  | false => exact .inr ⟨rfl, by simp [set, global, direct]⟩

theorem globals_set (direct : store.redirected = false) (name value other : Text) :
    (store.set name value).globals.has other =
      (store.globals.has other || (decide (other = name) && store.scopes.isEmpty)) := by
  rcases set_cases direct name value with ⟨global, written⟩ | ⟨-, written⟩
  · by_cases same : other = name
    · simp [written, setGlobal, same, global]
    · simp [written, setGlobal, same]
  · rw [written, updateInnermost]
    cases store.scopes with
    | nil => simp [Bool.or_comm]
    | cons scope rest => simp

theorem set_direct (direct : store.redirected = false) (name value : Text) :
    (store.set name value).redirected = false := by
  rcases set_cases direct name value with ⟨-, written⟩ | ⟨-, written⟩
  · simp only [written, setGlobal, direct]
  · simp only [written, updateInnermost]
    split <;> exact direct

theorem lookup_set (direct : store.redirected = false) (name value other : Text) :
    (store.set name value).lookup other =
      if other = name ∧ ¬store.Hides name then some value else store.lookup other := by
  rcases set_cases direct name value with ⟨global, written⟩ | ⟨absent, written⟩
  · rw [written]
    cases here : (store.scopes.head?.getD []).get? other with
    | some found =>
        have hidden : other = name → store.Hides name := by
          rintro rfl
          exact ⟨by simp [Scope.has, here], global⟩
        rw [if_neg fun seen => seen.2 (hidden seen.1)]
        simp only [lookup, setGlobal, here]
    | none =>
        have unhidden : other = name → ¬store.Hides name := by
          rintro rfl hides
          have found := hides.1
          rw [Scope.has, here] at found
          cases found
        simp only [lookup, setGlobal, here, Scope.get?_set]
        by_cases same : other = name
        · rw [if_pos same, if_pos ⟨same, unhidden same⟩]
        · rw [if_neg same, if_neg fun seen => same seen.1]
  · have unhidden : ¬store.Hides name := fun hides => by simp [hides.2] at absent
    rw [written, lookup, lookup, updateInnermost]
    simp only [unhidden, not_false_eq_true, and_true]
    cases store.scopes with
    | nil =>
        simp only [List.head?_nil, Option.getD_none, Scope.get?_set]
        rfl
    | cons scope rest =>
        simp only [List.head?_cons, Option.getD_some, Scope.get?_set]
        by_cases same : other = name <;> simp [same]

/-- What is written under the name is read back: no file is about to run, and no local variable hides a global. -/
structure Sees (store : Store) (name : Text) : Prop where
  direct : store.redirected = false
  seen : ¬store.Hides name

theorem Sees.lookup_set (sees : store.Sees name) (value : Text) : (store.set name value).lookup name = some value := by
  rw [Store.lookup_set sees.direct, if_pos ⟨rfl, sees.seen⟩]

theorem Sees.of_set {other value : Text} (sees : (store.set other value).Sees name) : store.Sees name := by
  have direct : store.redirected = false := by
    have after := sees.direct
    unfold set updateInnermost at after
    split at after
    · exact after
    · split at after
      · exact after
      · split at after <;> exact after
  refine ⟨direct, fun hides => sees.seen ?_⟩
  rcases set_cases direct other value with ⟨-, written⟩ | ⟨-, written⟩
  · rw [written]
    exact ⟨hides.1, by simp [setGlobal, hides.2]⟩
  · rw [written]
    obtain ⟨here, global⟩ := hides
    cases scopes : store.scopes with
    | nil =>
        rw [scopes] at here
        cases here
    | cons scope rest =>
        rw [scopes] at here
        have kept : (scope.set other value).has name = true := by simp [show scope.has name = true from here]
        simpa [Hides, updateInnermost, scopes, kept] using global

end Store

/-- A name without brackets or white space around it. -/
structure PlainName (name : Text) : Prop where
  noBracket : .char '[' ∉ name
  trimmed : Text.trim name = name

instance (name : Text) : Decidable (PlainName name) :=
  decidable_of_iff (.char '[' ∉ name ∧ Text.trim name = name)
    ⟨fun ⟨one, two⟩ => ⟨one, two⟩, fun ⟨one, two⟩ => ⟨one, two⟩⟩

theorem PlainName.get? {name : Text} (plain : PlainName name) (store : Store) :
    store.get? name = .ok (store.lookup name) := by
  have uncut : Text.cut? '[' name = none := by
    have noBracket := plain.noBracket
    clear plain
    induction name with
    | nil => rfl
    | cons c rest ih =>
        simp only [List.mem_cons, not_or] at noBracket
        simp [Text.cut?, Ne.symm noBracket.1, ih noBracket.2]
  simp [Store.get?, uncut, plain.trimmed]

namespace StoreStep

variable {store : Store} {name : Text}

theorem apply_publish (store : Store) (name : Text) :
    (publish name).apply store = store ∨
      ∃ value, (publish name).apply store = store.setGlobal (Text.trim name) value := by
  simp only [apply, Store.publish]
  split
  · exact .inl rfl
  · split
    · exact .inl rfl
    · exact .inr ⟨_, rfl⟩

theorem apply_direct (direct : store.redirected = false) (step : StoreStep) :
    (step.apply store).redirected = false := by
  have updated (f : Scope → Scope) : (store.updateInnermost f).redirected = false := by
    unfold Store.updateInnermost
    split <;> exact direct
  cases step with
  | openScope => exact direct
  | closeScope =>
      simp only [apply, Store.popScope?]
      split <;> exact direct
  | set name value =>
      rcases Store.set_cases direct name value with ⟨-, written⟩ | ⟨-, written⟩
      · rw [apply, written]
        exact direct
      · rw [apply, written]
        exact updated _
  | setGlobal name value => exact direct
  | delete name => exact updated _
  | publish name =>
      rcases apply_publish store name with kept | ⟨value, written⟩
      · rw [kept]
        exact direct
      · rw [written]
        exact direct

theorem apart_setGlobal (apart : store.Apart name) {made : Text} (value : Text)
    (clear : made = name → ¬store.Holds name) : (store.setGlobal made value).Apart name := by
  intro global held
  simp only [Store.setGlobal, Scope.has_set, Bool.or_eq_true, decide_eq_true_eq] at global
  rcases global with same | global
  · exact clear same.symm held
  · exact apart global held

theorem apart_updateInnermost (apart : store.Apart name) {f : Scope → Scope}
    (grows : ∀ scope, (f scope).has name = true → scope.has name = true ∨ store.globals.has name = false) :
    (store.updateInnermost f).Apart name := by
  intro global held
  cases scopes : store.scopes with
  | nil =>
      obtain ⟨scope, member, -⟩ := held
      simp [Store.updateInnermost, scopes] at member
  | cons first rest =>
      simp only [Store.updateInnermost, scopes] at global held
      obtain ⟨scope, member, found⟩ := held
      rcases List.mem_cons.mp member with rfl | outer
      · rcases grows first found with old | absent
        · exact apart global ⟨first, by simp [scopes], old⟩
        · rw [absent] at global
          cases global
      · exact apart global ⟨scope, by simp [scopes, outer], found⟩

/-- A name stays apart from the globals unless an operation makes it global while a scope holds it. -/
theorem apply_apart (direct : store.redirected = false) (apart : store.Apart name) (step : StoreStep)
    (clear : step.madeGlobal? = some name → ¬store.Holds name) : (step.apply store).Apart name := by
  cases step with
  | openScope =>
      rintro global ⟨scope, member, found⟩
      rcases List.mem_cons.mp member with rfl | outer
      · cases found
      · exact apart global ⟨scope, outer, found⟩
  | closeScope =>
      simp only [apply, Store.popScope?]
      cases scopes : store.scopes with
      | nil => exact apart
      | cons first rest =>
          rintro global ⟨scope, member, found⟩
          exact apart global ⟨scope, by simp [scopes, show scope ∈ rest from member], found⟩
  | set other value =>
      rcases Store.set_cases direct other value with ⟨global, written⟩ | ⟨absent, written⟩
      · rw [apply, written]
        refine apart_setGlobal apart value fun same => ?_
        subst same
        exact apart global
      · rw [apply, written]
        refine apart_updateInnermost apart fun scope found => ?_
        simp only [Scope.has_set, Bool.or_eq_true, decide_eq_true_eq] at found
        rcases found with rfl | old
        · exact .inr absent
        · exact .inl old
  | setGlobal other value => exact apart_setGlobal apart value fun same => clear (congrArg some same)
  | delete other => exact apart_updateInnermost apart fun scope found => .inl (scope.has_erase other name found)
  | publish other =>
      rcases apply_publish store other with kept | ⟨value, written⟩
      · rw [kept]
        exact apart
      · rw [written]
        exact apart_setGlobal apart value fun same => clear (congrArg some same)

end StoreStep

namespace Store

variable {name : Text}

theorem after_direct (history : List StoreStep) : (after history).redirected = false := by
  induction history using List.reverseRecOn with
  | nil => rfl
  | append_singleton history step ih =>
      rw [after_concat]
      exact StoreStep.apply_direct ih step

def MadeHidden (history : List StoreStep) (name : Text) : Prop :=
  ∃ earlier step later, history = earlier ++ step :: later ∧ step.madeGlobal? = some name ∧ (after earlier).Holds name

theorem after_apart (history : List StoreStep) (never : ¬MadeHidden history name) : (after history).Apart name := by
  induction history using List.reverseRecOn with
  | nil => exact fun global => nomatch global
  | append_singleton history step ih =>
      rw [after_concat]
      refine StoreStep.apply_apart (after_direct history) (ih ?_) step fun made held => ?_
      · rintro ⟨earlier, other, later, rfl, made⟩
        exact never ⟨earlier, other, later ++ [step], by simp, made⟩
      · exact never ⟨history, step, [], rfl, made, held⟩

/-- A write is seen by the next read, unless the innermost scope hides the global it goes to; then the scope's old
value is read. No other name is touched, and only a name that was made global while a scope held it is ever hidden. -/
theorem get?_set_after (history : List StoreStep) {name : Text} (plain : PlainName name) (value : Text) :
    (¬(after history).Hides name → ((after history).set name value).get? name = .ok (some value)) ∧
      ((after history).Hides name → (after history).set name value = (after history).setGlobal name value ∧
        ((after history).set name value).get? name = (after history).get? name) ∧
      (∀ other, PlainName other → other ≠ name →
        ((after history).set name value).get? other = (after history).get? other) ∧
      (¬MadeHidden history name → ¬(after history).Hides name) := by
  have direct := after_direct history
  refine ⟨?_, ?_, ?_, ?_⟩
  · intro seen
    rw [plain.get?, lookup_set direct, if_pos ⟨rfl, seen⟩]
  · intro hides
    refine ⟨?_, ?_⟩
    · rcases set_cases direct name value with ⟨-, written⟩ | ⟨absent, -⟩
      · exact written
      · rw [hides.2] at absent
        cases absent
    · rw [plain.get?, plain.get?, lookup_set direct, if_neg fun seen => seen.2 hides]
  · intro other plainOther different
    rw [plainOther.get?, plainOther.get?, lookup_set direct, if_neg fun seen => different seen.1]
  · intro never hides
    exact after_apart history never hides.2 hides.holds

def sampleHistory : List StoreStep :=
  [.setGlobal "g" "0", .openScope, .set "x" "1", .publish "x", .set "y" "2"]

theorem get?_set_sample :
    ((after sampleHistory).set "y" "3").get? "y" = .ok (some "3") ∧
      ((after sampleHistory).set "x" "3").get? "x" = (after sampleHistory).get? "x" := by
  have visible : PlainName "y" := by decide +kernel
  have seen : ¬(after sampleHistory).Hides "y" := by decide +kernel
  have hidden : PlainName "x" := by decide +kernel
  have unseen : (after sampleHistory).Hides "x" := by decide +kernel
  exact ⟨(get?_set_after sampleHistory visible "3").1 seen, ((get?_set_after sampleHistory hidden "3").2.1 unseen).2⟩

/-- Not every write is seen: once a local variable is published, writes go to the global and reads still find the
local value. -/
theorem write_unseen_after_publish :
    ¬∀ (history : List StoreStep) (name value : Text), PlainName name →
      ((after history).set name value).get? name = .ok (some value) := by
  intro seen
  have plain : PlainName "x" := by decide +kernel
  have read := seen [.openScope, .set "x" "1", .publish "x"] "x" "2" plain
  revert read
  decide +kernel

end Store

end CommandScript
