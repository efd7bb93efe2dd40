import CommandScript.Proofs.Course.Lines

/-! Passes of a loop. A range or a list is taken down when the header of its loop is read; as long as the loop stands
where it is, whatever runs above it, there is one pass for each of the elements that have been taken down, and the next
element is bound as a pass ends. -/

namespace CommandScript

variable {σ : Type}

open Run

namespace LoopSource

def count : LoopSource → Nat
  | list fields _ _ => fields.length
  | range start stop _ => (stop - start + 1).toNat
  | external _ _ => 0

def element (index : Nat) : LoopSource → Text
  | list fields _ _ => fields.getD index []
  | range start _ _ => Text.ofInt (start + index)
  | external _ _ => []

def during (index : Nat) : LoopSource → LoopSource
  | list fields _ saved => list fields (index + 1) saved
  | range start stop _ => range start stop (start + index)
  | external qualifier type => external qualifier type

/-- A range or a list of which no element but the first has been bound. -/
inductive Fresh : LoopSource → Prop
  | list (fields : List Text) (saved : Text) : Fresh (list fields (min 1 fields.length) saved)
  | range (start stop : Int) : Fresh (range start stop start)

theorem Fresh.during_zero {source : LoopSource} (fresh : source.Fresh) (filled : 0 < source.count) :
    source.during 0 = source := by
  cases fresh with
  | list fields saved => rw [during, Nat.min_eq_left (show 1 ≤ fields.length from filled)]
  | range start stop => rw [during, Int.natCast_zero, Int.add_zero]

theorem Fresh.inner {source : LoopSource} (fresh : source.Fresh) (qualifier : Option Text) (type : Text) :
    source ≠ .external qualifier type := by
  rintro rfl
  cases fresh

theorem during_inner {source : LoopSource} (fresh : source.Fresh) (index : Nat) (qualifier : Option Text)
    (type : Text) :
    source.during index ≠ .external qualifier type := by
  cases fresh <;> nofun

def restored (name : Text) (store : Store) : LoopSource → Store
  | list _ _ saved => store.set name saved
  | _ => store

theorem restored_during (source : LoopSource) (index : Nat) (name : Text) (store : Store) :
    (source.during index).restored name store = source.restored name store := by
  cases source <;> rfl

end LoopSource

/-- A loop that is about to be replayed: the function that runs its lines, its place on the stack, the height of the
conditional stack, and the session in which the first pass is due. -/
structure LoopPasses (σ : Type) where
  env : Env σ
  runs : Text → Run σ Unit
  position : Nat
  conditions : Nat
  loop : Loop
  start : Session σ

namespace LoopPasses

variable (passes : LoopPasses σ)

def body : Run σ Unit := Flow.replayLines passes.env passes.runs passes.conditions passes.loop.lines

def step (index : Nat) (session : Session σ) : Session σ :=
  { session with
    frame := session.frame.modifyLoopAt passes.position ({ · with source := passes.loop.source.during index }) }

def offer (index : Nat) (session : Session σ) : Session σ :=
  (passes.step index session).put passes.loop.name (passes.loop.source.element index)

def spent (session : Session σ) : Session σ :=
  match passes.loop.source with
  | .range _ _ _ => passes.step passes.loop.source.count session
  | _ => session

theorem spent_store (session : Session σ) : (passes.spent session).store = session.store := by
  unfold spent
  split <;> rfl

theorem spent_host (session : Session σ) : (passes.spent session).host = session.host := by
  unfold spent
  split <;> rfl

def number (index : Nat) (session : Session σ) : Session σ := session.put "for_index" (Text.ofNat (index + 1))

/-- Where a pass is due: its element has been bound, right after the pass before. -/
def due : Nat → Session σ
  | 0 => passes.start
  | index + 1 => passes.offer (index + 1) (passes.body.leaves (number index (due index)))

/-- Where the body of a pass starts: the pass has its number, right after its element has been bound. -/
def begun (index : Nat) : Session σ := number index (passes.due index)

def ended (index : Nat) : Session σ := passes.body.leaves (passes.begun index)

/-- A pass neither fails, be it that calls would nest too deeply, nor leaves the loop. -/
structure Completes (index : Nat) : Prop where
  room : passes.start.depth ≤ callLimit
  ends : passes.body (passes.begun index) = .ok () (passes.ended index)
  stays : ((passes.ended index).frame.loopAt? passes.position).any (·.mode = .leaving) = false

def last : Session σ :=
  match passes.loop.source.count with
  | 0 => passes.start
  | index + 1 => passes.ended index

/-- The loop stands in its place, in the pass over an element. -/
def Stands (index : Nat) (session : Session σ) : Prop :=
  ∃ now, session.frame.loopAt? passes.position = some now ∧ now.isCollecting = false ∧ now.name = passes.loop.name ∧
    now.source = passes.loop.source.during index

/-- Whatever a body does, the loop that it runs above stays in its place. -/
def Undisturbed : Prop :=
  ∀ session : Session σ, session.Grounded (passes.position + 1) →
    session.frame.Stands (passes.position + 1) (passes.body.leaves session).frame

variable {passes} {index : Nat} {session : Session σ}

theorem Stands.grounded (stands : passes.Stands index session) : session.Grounded (passes.position + 1) := by
  intro top same
  obtain ⟨now, found, read, _⟩ := stands
  obtain rfl : top = passes.position := by omega
  exact ⟨now, found, read⟩

theorem Stands.body (undisturbed : passes.Undisturbed) (stands : passes.Stands index session) :
    passes.Stands index (passes.body.leaves session) := by
  have grounded := stands.grounded
  obtain ⟨now, found, read, name, source⟩ := stands
  obtain ⟨later, there, stays⟩ := undisturbed session grounded passes.position (Nat.lt_succ_self _) now found
  refine ⟨later, there, Bool.eq_false_iff.mpr fun reading => ?_, stays.name.trans name, stays.source.trans source⟩
  rw [stays.reads reading] at read
  cases read

theorem Stands.number (stands : passes.Stands index session) : passes.Stands index (number index session) := stands

theorem Stands.step (stands : passes.Stands index session) (other : Nat) :
    passes.Stands other (passes.step other session) := by
  obtain ⟨now, found, read, name, _⟩ := stands
  simp only [Frame.loopAt?] at found
  refine ⟨{ now with source := passes.loop.source.during other }, ?_, read, name, rfl⟩
  simp [LoopPasses.step, Frame.loopAt?, Frame.modifyLoopAt, found]

theorem stands_due (undisturbed : passes.Undisturbed) (starts : passes.Stands 0 passes.start) (index : Nat) :
    passes.Stands index (passes.due index) := by
  induction index with
  | zero => exact starts
  | succ index ih => exact ((ih.number).body undisturbed).step (index + 1)

theorem stands_ended (undisturbed : passes.Undisturbed) (starts : passes.Stands 0 passes.start) (index : Nat) :
    passes.Stands index (passes.ended index) := ((stands_due undisturbed starts index).number).body undisturbed

theorem stands_last (undisturbed : passes.Undisturbed) (starts : passes.Stands 0 passes.start) :
    ∃ index, passes.Stands index passes.last := by
  unfold last
  split
  · exact ⟨0, starts⟩
  · exact ⟨_, stands_ended undisturbed starts _⟩

theorem stands_spent (undisturbed : passes.Undisturbed) (starts : passes.Stands 0 passes.start) :
    ∃ index, passes.Stands index (passes.spent passes.last) := by
  obtain ⟨index, stands⟩ := stands_last undisturbed starts
  unfold spent
  split
  · exact ⟨_, stands.step _⟩
  · exact ⟨index, stands⟩

theorem advance_offers (fresh : passes.loop.source.Fresh) (stands : passes.Stands index session)
    (more : index + 1 < passes.loop.source.count) :
    Flow.advance passes.env passes.position session = .ok .more (passes.offer (index + 1) session) := by
  obtain ⟨now, found, _, name, source⟩ := stands
  unfold Flow.advance offer step
  simp only [Bind.bind, EStateM.bind, EStateM.get_apply, found]
  cases kind : passes.loop.source with
  | list fields position saved =>
      simp only [kind, LoopSource.count] at more
      have element : LoopSource.element (index + 1) (.list fields position saved) = fields[index + 1] :=
        (List.getElem_eq_getD []).symm
      simp only [source, kind, LoopSource.during, List.getElem?_eq_getElem more, name, element]
      rfl
  | range start stop current =>
      simp only [kind, LoopSource.count] at more
      have inside : ¬start + index + 1 > stop := by omega
      have next : start + (index + 1 : Nat) = start + index + 1 := by omega
      simp only [source, kind, LoopSource.during, LoopSource.element, next, EStateM.bind, modifyFrame,
        EStateM.modify_apply, inside, ↓reduceIte, name]
      rfl
  | external qualifier type => rw [kind] at fresh; cases fresh

theorem advance_ends (fresh : passes.loop.source.Fresh) (stands : passes.Stands index session)
    (last : index + 1 = passes.loop.source.count) :
    Flow.advance passes.env passes.position session = .ok .noMore (passes.spent session) := by
  obtain ⟨now, found, _, _, source⟩ := stands
  unfold Flow.advance spent
  simp only [Bind.bind, EStateM.bind, EStateM.get_apply, found]
  cases kind : passes.loop.source with
  | list fields position saved =>
      simp only [kind, LoopSource.count] at last
      simp only [source, kind, LoopSource.during, last, List.getElem?_length]
      rfl
  | range start stop current =>
      simp only [kind, LoopSource.count] at last
      have outside : start + index + 1 > stop := by omega
      have next : start + ((stop - start + 1).toNat : Nat) = start + index + 1 := by omega
      simp only [source, kind, LoopSource.during, step, LoopSource.count, next, EStateM.bind, modifyFrame,
        EStateM.modify_apply, outside, ↓reduceIte]
      rfl
  | external qualifier type => rw [kind] at fresh; cases fresh

theorem replay_pass (completed : passes.Completes index) (left : Nat) :
    Flow.replay passes.env passes.runs passes.position passes.conditions passes.loop.lines (left + 1) (index + 1)
        (passes.due index) =
      (do
        let answer ← Flow.advance passes.env passes.position
        if answer = .more then
          Flow.replay passes.env passes.runs passes.position passes.conditions passes.loop.lines left (index + 1 + 1)
        else return answer : Run σ Answer) (passes.ended index) := by
  have ends : Flow.replayLines passes.env passes.runs passes.conditions passes.loop.lines
      ((passes.due index).put "for_index" (Text.ofNat (index + 1))) = .ok () (passes.ended index) := completed.ends
  simp only [Flow.replay, Run.put, Bind.bind, EStateM.bind, EStateM.modify_apply, ends, EStateM.get_apply,
    completed.stays, Bool.false_eq_true, ↓reduceIte]

/-- From a pass on, a loop that is neither failed nor left has all its passes, and no more. -/
theorem replay_completes (fresh : passes.loop.source.Fresh) (undisturbed : passes.Undisturbed)
    (starts : passes.Stands 0 passes.start) (completes : ∀ index < passes.loop.source.count, passes.Completes index)
    {left : Nat} (here : index + 1 + left = passes.loop.source.count) :
    Flow.replay passes.env passes.runs passes.position passes.conditions passes.loop.lines (left + 1) (index + 1)
      (passes.due index) = .ok .noMore (passes.spent passes.last) := by
  induction left generalizing index with
  | zero =>
      have stands := stands_ended undisturbed starts index
      have final : passes.last = passes.ended index := by
        unfold last
        rw [← here]
      rw [replay_pass (completes index (by omega))]
      simp only [Bind.bind, EStateM.bind, advance_ends fresh stands here, final]
      rfl
  | succ left ih =>
      have stands := stands_ended undisturbed starts index
      have rest := ih (show index + 1 + 1 + left = _ by omega)
      rw [replay_pass (completes index (by omega))]
      simp only [Bind.bind, EStateM.bind, advance_offers fresh stands (by omega), ↓reduceIte]
      exact rest

end LoopPasses

namespace Flow

variable {env : Env σ} {session : Session σ}

/-- A loop over a range or a list goes from the stack, and the line number is that of its end again. -/
theorem finishLoop_restores {position : Nat} {now : Loop} (found : session.frame.loopAt? position = some now)
    (inner : ∀ qualifier type, now.source ≠ .external qualifier type) (resume : Nat) :
    ∃ after, finishLoop env position resume session = .ok () after ∧ after.frame.line = resume ∧
      after.store = now.source.restored now.name session.store ∧ after.host = session.host := by
  obtain ⟨store, _, host⟩ := session.noteEnd_kept now
  rw [finishLoop_found found, closeLoop]
  simp only [bind, EStateM.bind, EStateM.modify_apply, giveBack]
  cases source : now.source with
  | list fields next saved => exact ⟨_, rfl, rfl, congrArg (Store.set · now.name saved) store, host⟩
  | range start stop current => exact ⟨_, rfl, rfl, store, host⟩
  | external qualifier type => exact absurd source (inner qualifier type)

def passesOf (env : Env σ) (runs : Text → Run σ Unit) (session : Session σ) (loop : Loop) (outer : List Loop) :
    LoopPasses σ where
  env
  runs
  position := outer.length
  conditions := session.frame.conditions.length
  loop
  start :=
    { session with
      depth := session.depth + 5
      frame := session.frame.modifyLoop ({ · with mode := .replaying }) }

/-- The end of a body, if there is no further element after the passes and the loop goes from the stack. -/
theorem endLoop_noMore {runs : Text → Run σ Unit} {loop : Loop} {outer : List Loop} {reached after : Session σ}
    (stack : session.frame.loops = loop :: outer)
    (ran : runPasses env runs session.frame loop outer session = .ok .noMore reached)
    (finished : finishLoop env outer.length session.frame.line reached = .ok () after) :
    endLoop env runs session = .ok () after := by
  unfold endLoop
  unfold runPasses at ran
  simp only [bind, EStateM.bind, EStateM.get_apply, stack, Run.always, Run.attempt] at ran ⊢
  rw [ran]
  simp only [finished]
  rfl

theorem budget_fresh (env : Env σ) {loop : Loop} (fresh : loop.source.Fresh) : budget env loop = loop.source.count := by
  unfold budget LoopSource.count
  generalize loop.source = source at fresh
  cases fresh <;> rfl

/-- The end of a body: there is one pass for each element, and afterwards the line number is that of the end. -/
theorem endLoop_passes {runs : Text → Run σ Unit} {loop : Loop} {outer : List Loop}
    (stack : session.frame.loops = loop :: outer) (fresh : loop.source.Fresh)
    (mode : loop.mode = readingIf (0 < loop.source.count))
    (undisturbed : (passesOf env runs session loop outer).Undisturbed)
    (completes : ∀ index < loop.source.count, (passesOf env runs session loop outer).Completes index) :
    ∃ after, endLoop env runs session = .ok () after ∧ after.frame.line = session.frame.line ∧
      after.store = loop.source.restored loop.name (passesOf env runs session loop outer).last.store ∧
      after.host = (passesOf env runs session loop outer).last.host := by
  let passes := passesOf env runs session loop outer
  -- a loop without elements is not replayed at all
  cases counted : loop.source.count with
  | zero =>
      have place : session.frame.loopAt? outer.length = some loop := by simp [Frame.loopAt?, stack]
      have idle : loop.mode ≠ .reading := by simp [mode, counted, readingIf]
      have final : passes.last = passes.start := by
        unfold LoopPasses.last
        rw [show passes.loop.source.count = 0 from counted]
      obtain ⟨after, finished, line, store, host⟩ :=
        @finishLoop_restores σ env session outer.length loop place fresh.inner session.frame.line
      refine ⟨after, endLoop_noMore stack (by rw [runPasses, if_neg idle]; rfl) finished, line, ?_, ?_⟩
      · rw [final]
        exact store
      · rw [final]
        exact host
  | succ last =>
      have reads : loop.mode = .reading := by simp [mode, counted, readingIf]
      have starts : passes.Stands 0 passes.start := by
        refine ⟨{ loop with mode := .replaying }, ?_, rfl, rfl, (fresh.during_zero (by omega)).symm⟩
        simp [passes, passesOf, Frame.loopAt?, Frame.modifyLoop, stack]
      have replayed := LoopPasses.replay_completes fresh undisturbed starts completes (show 0 + 1 + last = _ by
        rw [show passes.loop.source.count = last + 1 from counted]
        omega)
      obtain ⟨index, now, place, _, name, source⟩ := LoopPasses.stands_spent undisturbed starts
      have inner (qualifier : Option Text) (type : Text) : now.source ≠ .external qualifier type := by
        rw [source]
        exact LoopSource.during_inner fresh _ _ _
      let reached := { passes.spent passes.last with depth := session.depth }
      obtain ⟨after, finished, line, store, host⟩ :=
        @finishLoop_restores σ env reached outer.length now place inner session.frame.line
      refine ⟨after, endLoop_noMore stack ?_ finished, line, ?_, ?_⟩
      · rw [runPasses, if_pos reads, budget_fresh env fresh, counted]
        exact Run.deeper_ok (completes 0 (by omega)).room replayed
      · rw [store, source, name, LoopSource.restored_during]
        exact congrArg (fun store => loop.source.restored loop.name store) (passes.spent_store passes.last)
      · rw [host]
        exact passes.spent_host passes.last

end Flow

namespace Interpreter

theorem passesOf_undisturbed (env : Env σ) (depth : Nat) (session : Session σ) (loop : Loop) (outer : List Loop) :
    (Flow.passesOf env (runLine env (execLine env depth)) session loop outer).Undisturbed := by
  intro reached grounded
  have lasting := Lasting.always env fun _ : σ => ()
  have lines := runLine_tracks lasting (execLine_tracks env (fun _ : σ => ()) lasting depth)
  have runs := Flow.replayLines_follows lasting lines grounded trivial session.frame.conditions.length loop.lines
  exact (runs (.refl _ reached)).kept.meets.leaves.stands

end Interpreter

end CommandScript
