import CommandScript.Proofs.Passes.Headers
import CommandScript.Proofs.Passes.References
import CommandScript.Proofs.Variables.Writes

/-! Arrays and loops over them. The size of an array, its elements and the passes of a loop over it are those of one
list of fields if the text is evenly quoted, and only then. -/

namespace CommandScript

variable {σ : Type}

/-- What the header of a loop over a list takes down is what its variable holds, as it is or after the header
has set it. -/
theorem LoopHeader.Takes.listed {env : Env σ} {name text : Text} {literal : Option Text} {source : LoopSource}
    {before after : Session σ} (takes : LoopHeader.Takes env (.list name literal) before source after)
    (holds : (literal.elim before (before.put name)).store.get? name = .ok (some text)) :
    source = .list (Flow.listFields text) (min 1 (Flow.listFields text).length) text ∧
      after = literal.elim before (before.put name) := by
  cases takes with
  | stored found =>
      cases holds.symm.trans found
      exact ⟨rfl, rfl⟩
  | literal found =>
      cases holds.symm.trans found
      exact ⟨rfl, rfl⟩

theorem LoopSource.element_list {fields : List Text} {index position : Nat} {text : Text}
    (inside : index < fields.length) :
    (LoopSource.list fields position text).element index = fields[index] := (List.getElem_eq_getD []).symm

namespace LoopPasses

variable {passes : LoopPasses σ} {before : Store}

/-- The variables when the element of a pass is about to be bound: those before the loop, or what the pass
before has made of them. -/
def prior (passes : LoopPasses σ) (before : Store) : Nat → Store
  | 0 => before
  | index + 1 => (passes.ended index).store

theorem due_prior (starts : passes.start.store = before.set passes.loop.name (passes.loop.source.element 0))
    (index : Nat) :
    (passes.due index).store = (passes.prior before index).set passes.loop.name (passes.loop.source.element index) := by
  cases index with
  | zero => exact starts
  | succ index => rfl

/-- The number of a pass takes the place of its element only if both have one name. -/
theorem begun_other (other : passes.loop.name ≠ "for_index") {index : Nat}
    (direct : (passes.due index).store.redirected = false) :
    (passes.begun index).store.lookup passes.loop.name = (passes.due index).store.lookup passes.loop.name :=
  (Store.lookup_set direct "for_index" (Text.ofNat (index + 1)) passes.loop.name).trans
    (if_neg fun same => other same.1)

/-- A pass starts with its element under the loop's name, unless the write is not seen. -/
theorem begun_lookup (starts : passes.start.store = before.set passes.loop.name (passes.loop.source.element 0))
    (other : passes.loop.name ≠ "for_index") {index : Nat} (sees : (passes.begun index).store.Sees passes.loop.name) :
    (passes.begun index).store.lookup passes.loop.name = some (passes.loop.source.element index) := by
  have due : (passes.due index).store.Sees passes.loop.name :=
    Store.Sees.of_set
      (show ((passes.due index).store.set "for_index" (Text.ofNat (index + 1))).Sees passes.loop.name from sees)
  rw [begun_other other due.direct]
  rw [due_prior starts] at due ⊢
  exact due.of_set.lookup_set _

/-- The element of a pass is bound as the pass is due, and is read under the loop's name until the body writes.
The first element is bound as the loop is opened, the others after the pass before. -/
theorem binds (starts : passes.start.store = before.set passes.loop.name (passes.loop.source.element 0))
    (single : before.Sees passes.loop.name) (index : Nat) :
    (passes.due index).store = (passes.prior before index).set passes.loop.name (passes.loop.source.element index) ∧
      ((0 < index → (passes.prior before index).Sees passes.loop.name) →
        (passes.due index).store.lookup passes.loop.name = some (passes.loop.source.element index) ∧
          (passes.loop.name ≠ "for_index" →
            (passes.begun index).store.lookup passes.loop.name = some (passes.loop.source.element index))) := by
  have due := due_prior starts index
  refine ⟨due, fun later => ?_⟩
  have sees : (passes.prior before index).Sees passes.loop.name := by
    cases index with
    | zero => exact single
    | succ index => exact later index.succ_pos
  have direct : (passes.due index).store.redirected = false := by
    rw [due]
    exact StoreStep.apply_direct sees.direct (.set passes.loop.name (passes.loop.source.element index))
  have here : (passes.due index).store.lookup passes.loop.name = some (passes.loop.source.element index) :=
    due ▸ sees.lookup_set _
  exact ⟨here, fun other => (begun_other other direct).trans here⟩

end LoopPasses

namespace Flow

theorem bindFields_stored {session : Session σ} {name text : Text} (holds : session.store.get? name = .ok (some text)) :
    ∃ loop after, bindFields name session = .ok loop after := by
  have read : Run.readVariable name session = .ok (some text) session := by
    simp only [Run.readVariable, bind, EStateM.bind, EStateM.get_apply, holds]
    rfl
  unfold bindFields
  simp only [bind, EStateM.bind, read]
  cases (listFields text).head? with
  | none => exact ⟨_, _, rfl⟩
  | some first => exact ⟨_, _, rfl⟩

end Flow

namespace Interpreter

variable {env : Env σ} {session : Session σ} {line name text : Text}

theorem startLoop_bound {header : LoopHeader} (parsed : LoopHeader.parse line = .ok header)
    (bound : ∃ loop after,
      Flow.bindFirst env header { session with frame := { session.frame with blocks := ⟨1, 0⟩ } } = .ok loop after) :
    ∃ opened, startLoop env line session = .ok () opened := by
  obtain ⟨loop, after, bound⟩ := bound
  unfold startLoop
  rw [parsed]
  simp only [Run.ofCause, Run.ofExcept, Run.modifyFrame, Flow.openLoop, Flow.enroll, bind, EStateM.bind, pure,
    EStateM.pure,
    EStateM.modify_apply, EStateM.get_apply, bound]
  exact ⟨_, rfl⟩

theorem startLoop_stored (parsed : LoopHeader.parse line = .ok (.list name none))
    (holds : session.store.get? name = .ok (some text)) : ∃ opened, startLoop env line session = .ok () opened :=
  startLoop_bound parsed (Flow.bindFields_stored holds)

/-- A loop over a stored list is opened, and at the end of its body has one pass for each field. -/
theorem startLoop_list (env : Env σ) (depth : Nat) (parsed : LoopHeader.parse line = .ok (.list name none))
    (holds : session.store.get? name = .ok (some text)) :
    let fields := Flow.listFields text
    ∃ opened, startLoop env line session = .ok () opened ∧
      ∀ (ready : Session σ) (last : Text), Reads env (execLine env depth) opened ready →
        (ready.frame.blocks.track last).2 = .ok true → ∃ loop outer, ready.frame.loops = loop :: outer ∧
          loop.name = name ∧ loop.source = .list fields (min 1 fields.length) text ∧
          let passes := passesAfter env depth last ready loop outer
          passes.start.store = loop.source.bound name session.store ∧
            ((∀ index < fields.length, passes.Completes index) →
              ∃ after, collect env (execLine env depth) last ready = .ok () after ∧
                after.store = passes.last.store.set name text ∧ after.host = passes.last.host) := by
  intro fields
  obtain ⟨opened, opens⟩ := @startLoop_stored σ env session line name text parsed holds
  refine ⟨opened, opens, fun ready last reads ends => ?_⟩
  obtain ⟨taken, loop, outer, takes, stack, same, mode, bound⟩ := reads.opens parsed rfl opens
  obtain ⟨source, rfl⟩ := takes.listed holds
  have count : loop.source.count = fields.length := by rw [source]; rfl
  refine ⟨loop, outer, stack, same, source, bound, fun completes => ?_⟩
  obtain ⟨after, ended, -, store, host⟩ :=
    collect_passes env depth ends stack takes.fresh mode fun index inside => completes index (count ▸ inside)
  rw [source, same] at store
  exact ⟨after, ended, store, host⟩

/-- The size of an array and its elements, and the passes of a loop over it. They agree exactly if the text is evenly
quoted: otherwise a double quote inside it parts the fields of the array and not those of the loop, or quotes of
another kind around it belong to the fields of the array and not to those of the loop. A pass starts with its field
under the name if the write to the name is seen. -/
theorem array_passes (env : Env σ) (depth : Nat) {session : Session σ} {line name text : Text}
    (valid : isValidName name = true) (other : name ≠ "for_index") (stored : session.store.lookup name = some text)
    (unbound : session.buffer? name = none) (room : session.depth + 17 ≤ Run.callLimit)
    (parsed : LoopHeader.parse line = .ok (.list name none)) :
    let array := splitArray text
    let fields := Flow.listFields text
    Expr.valueOf env (Text.sizeCall name) session = .ok (.int array.length) session ∧
      (∀ index (inside : index < array.length), index + 1 < Number.integerLimit →
        Expr.valueOf env (Text.subscript name (index + 1)) session =
          Run.ofFault (Value.classify array[index]) session) ∧
      (array.length + 1 < Number.integerLimit → ∃ error : ScriptError,
        Expr.valueOf env (Text.subscript name (array.length + 1)) session = .error (.error error) session ∧
          error.kind = .arrayIndex) ∧
      (∃ opened, startLoop env line session = .ok () opened ∧
        ∀ (ready : Session σ) (last : Text), Reads env (execLine env depth) opened ready →
          (ready.frame.blocks.track last).2 = .ok true → ∃ loop outer, ready.frame.loops = loop :: outer ∧
            let passes := passesAfter env depth last ready loop outer
            loop.source.count = fields.length ∧
              ((∀ index < fields.length, passes.Completes index) →
                ∃ after, collect env (execLine env depth) last ready = .ok () after ∧
                  after.store = passes.last.store.set name text ∧ after.host = passes.last.host) ∧
              ∀ index (inside : index < fields.length), (passes.begun index).store.Sees name →
                (passes.begun index).store.lookup name = some fields[index]) ∧
      (array = fields ↔ text.EvenlyQuoted) := by
  intro array fields
  have plain := isValidName_plain valid
  have holds : session.store.get? name = .ok (some text) := (plain.get? session.store).trans (congrArg _ stored)
  refine ⟨Expr.valueOf_sizeCall valid unbound stored (by omega), ?_, ?_, ?_, Text.splitArray_eq_listFields text⟩
  · intro index inside small
    rw [Expr.valueOf_subscript valid stored room small, if_pos (Nat.succ_le_succ index.zero_le),
      Nat.add_sub_cancel, List.getElem?_eq_getElem inside]
  · intro small
    refine ⟨{ cause := .store (.indexRange (Text.subscript name (array.length + 1))) }, ?_, rfl⟩
    rw [Expr.valueOf_subscript valid stored room small, if_pos (Nat.succ_le_succ array.length.zero_le),
      Nat.add_sub_cancel,
      show (splitArray text)[array.length]? = none from List.getElem?_length _]
    rfl
  · obtain ⟨opened, opens, loops⟩ := startLoop_list env depth parsed holds
    refine ⟨opened, opens, fun ready last reads ends => ?_⟩
    obtain ⟨loop, outer, stack, same, source, bound, completed⟩ := loops ready last reads ends
    let passes := passesAfter env depth last ready loop outer
    have count : loop.source.count = fields.length := by rw [source]; rfl
    refine ⟨loop, outer, stack, count, completed, fun index inside sees => ?_⟩
    have starts : passes.start.store = session.store.set passes.loop.name (passes.loop.source.element 0) := by
      rw [LoopSource.bound, if_pos (by omega), ← same] at bound
      exact bound
    have element : passes.loop.source.element index = fields[index] :=
      (congrArg (LoopSource.element index) source).trans (LoopSource.element_list inside)
    rw [← element, ← same]
    exact LoopPasses.begun_lookup starts (same ▸ other) (same ▸ sees)

/-- An array of two elements, and the second of the two passes over it. -/
theorem pair_passes :
    let env : Env Unit := {}
    let session := (Session.start {} ()).put "a" "\"x, y\""
    let opened := (startLoop env "foreach(a)").leaves session
    let ready := (collect env (execLine env 2) "print a").leaves opened
    Expr.valueOf env "a.size()" session = .ok (.int 2) session ∧
      Expr.valueOf env "a[2]" session = .ok (.text "y") session ∧
      (∃ error : ScriptError, Expr.valueOf env "a[3]" session = .error (.error error) session ∧
        error.kind = .arrayIndex) ∧
      ∃ loop outer after, ready.frame.loops = loop :: outer ∧
        collect env (execLine env 2) "endfor" ready = .ok () after ∧
        ((passesAfter env 2 "endfor" ready loop outer).begun 1).store.lookup "a" = some ("y" : Text) ∧
        after.store.lookup "a" = some ("\"x, y\"" : Text) := by
  intro env session opened ready
  have parsed : LoopHeader.parse "foreach(a)" = .ok (.list "a" none) := by decide +kernel
  obtain ⟨size, elements, beyond, ⟨reached, opens, passes⟩, -⟩ :=
    @array_passes Unit env 2 session "foreach(a)" "a" "\"x, y\"" (by decide) (by decide) (by decide +kernel)
      (by decide +kernel) (by decide +kernel) parsed
  have known : opened = reached := congrArg (fun result => Run.leaves (fun _ => result) session) opens
  have read : Reads env (execLine env 2) reached ready := known ▸ .line "print a" .opened (by decide +kernel)
  obtain ⟨loop, outer, stack, _, completed, begun⟩ := passes ready "endfor" read (by decide +kernel)
  have top : ready.frame.loops =
      [{ name := "a", source := .list ["x", "y"] 1 "\"x, y\"", mode := .reading, lines := [⟨"print a", 0⟩] }] := by
    decide +kernel
  obtain ⟨rfl, rfl⟩ := List.cons.inj (stack.symm.trans top)
  obtain ⟨after, ended, store, -⟩ := completed fun index (inside : index < 2) =>
    match index, inside with
    | 0, _ => ⟨by decide +kernel, Run.ends_ok (by decide +kernel), by decide +kernel⟩
    | 1, _ => ⟨by decide +kernel, Run.ends_ok (by decide +kernel), by decide +kernel⟩
  refine ⟨size, (elements 1 (by decide) (by decide +kernel)).trans ?_, beyond (by decide +kernel), _, _, after,
    stack, ended,
    begun 1 (by decide) ⟨by decide +kernel, by decide +kernel⟩, ?_⟩
  · rfl
  · rw [store]
    decide +kernel

end Interpreter

end CommandScript
