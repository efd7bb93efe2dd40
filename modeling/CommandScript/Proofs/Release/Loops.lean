import CommandScript.Proofs.Release.Programs

/-!
The programs that work on the stack of loops: aliases are kept with the loops, a loop is advanced
between its passes, and at the end of its body it is replayed and taken from the stack.
-/

namespace CommandScript

variable {σ α : Type}

open Run

theorem Tidy.relabel {before after : Session σ}
    (loops : List.Forall₂ Loop.Same before.frame.loops after.frame.loops) (callers : after.callers = before.callers)
    (loopCount : after.loopCount = before.loopCount) (history : after.history = before.history) :
    Tidy before after :=
  fun _ ready => Moves.relabel ready loops callers loopCount history

theorem Loop.Same.modify {loops : List Loop} {index : Nat} {f : Loop → Loop}
    (same : ∀ loop, loops[index]? = some loop → loop.Same (f loop)) :
    List.Forall₂ Loop.Same loops (loops.modify index f) := by
  induction loops generalizing index with
  | nil => simp
  | cons first rest ih =>
      cases index with
      | zero => exact .cons (same first rfl) (Loop.Same.all_refl rest)
      | succ index =>
          refine .cons (.refl first) (ih fun loop found => ?_)
          exact same loop found

namespace Frame

theorem modifyLoopAt_same {frame : Frame} {depth : Nat} {f : Loop → Loop}
    (same : ∀ loop, frame.loopAt? depth = some loop → loop.Same (f loop)) :
    List.Forall₂ Loop.Same frame.loops (frame.modifyLoopAt depth f).loops := by
  have reversed := Loop.Same.modify same
  rwa [← List.forall₂_reverse_iff, List.reverse_reverse] at reversed

theorem modifyLoop_same {frame : Frame} {f : Loop → Loop} (same : ∀ loop : Loop, loop.Same (f loop)) :
    List.Forall₂ Loop.Same frame.loops (frame.modifyLoop f).loops := by
  unfold modifyLoop
  cases frame.loops with
  | nil => exact .nil
  | cons first rest => exact .cons (same first) (Loop.Same.all_refl rest)

theorem zipAliases_all {R : Loop → Loop → Prop} (each : ∀ (loop : Loop) aliases, R loop { loop with aliases })
    {loops : List Loop} {tables : List AliasTable} (enough : loops.length = tables.length) :
    List.Forall₂ R loops ((loops.zip tables).map fun (loop, aliases) => { loop with aliases }) := by
  induction loops generalizing tables with
  | nil => exact .nil
  | cons first rest ih =>
      cases tables with
      | nil => cases enough
      | cons table others => exact .cons (each first table) (ih (by simpa using enough))

theorem withAliasTables_same {frame : Frame} {tables : List AliasTable}
    (enough : tables.length = frame.loops.length + 1) :
    List.Forall₂ Loop.Same frame.loops (frame.withAliasTables tables).loops :=
  zipAliases_all (fun _ _ => ⟨rfl, rfl, id⟩) (by simp [enough])

theorem aliasTables_length (frame : Frame) : frame.aliasTables.length = frame.loops.length + 1 := by
  simp [aliasTables]

end Frame

namespace Command

theorem runAlias_takes (rest : Text) : Takes Tidy (runAlias rest : Run σ Unit) := by
  have writes (text : Text) : Takes Tidy (Run.writeLine text : Run σ Unit) :=
    .respecting Tidy.steps fun reference => Respects.writeLine (Held.traceable reference).toPrintable text
  refine Takes.read fun session => ?_
  dsimp only
  split
  · split
    · exact Takes.bind Tidy.steps (writes _) (fun _ => Takes.forM Tidy.steps fun _ => writes _) session
    · exact Takes.forM Tidy.steps (fun _ => writes _) session
  · refine Takes.bindAt Tidy.steps (Takes.ofExcept Tidy.steps _ _ session) fun entry after parsed => ?_
    have same : after = session := Run.ofExcept_stays parsed
    subst same
    refine Tidy.relabel (Frame.withAliasTables_same ?_) rfl rfl rfl
    rw [← Frame.aliasTables_length]
    unfold AliasTable.define
    split <;> simp

theorem runUnalias_takes (env : Env σ) (rest : Text) : Takes Tidy (runUnalias env rest) := by
  have writes (text : Text) : Takes Tidy (Run.writeLine text : Run σ Unit) :=
    .respecting Tidy.steps fun reference => Respects.writeLine (Held.traceable reference).toPrintable text
  have required : Takes Tidy (require rest "unalias" "arguments" : Run σ Unit) :=
    .respecting Tidy.steps fun _ => require_respects _ _ _
  refine Takes.bind Tidy.steps required fun _ => Takes.read fun session => ?_
  refine Takes.forM Tidy.steps (fun name => Takes.read fun session => ?_) session
  refine Takes.bindAt Tidy.steps ?_ fun _ after _ => ?_
  · refine Tidy.relabel (Frame.withAliasTables_same ?_) rfl rfl rfl
    rw [← Frame.aliasTables_length, List.length_map]
  · split
    · exact writes _ after
    · exact Takes.pure Tidy.steps _ after

theorem runLeaveLoop_takes : Takes Tidy (runLeaveLoop : Run σ Unit) := by
  have leaves : Takes Tidy (Run.modifyFrame (·.modifyLoop ({ · with mode := .leaving })) : Run σ Unit) :=
    Takes.change fun _ => Tidy.relabel (Frame.modifyLoop_same fun _ => ⟨rfl, rfl, nofun⟩) rfl rfl rfl
  refine Takes.read fun session => ?_
  split
  · exact Takes.bind Tidy.steps (Takes.fail Tidy.steps _) (fun _ => leaves) session
  · exact leaves session

end Command

namespace Flow

theorem put_still {session after : Session σ} {name value : Text} {ended : PUnit}
    (ran : (Run.put name value : Run σ PUnit) session = .ok ended after) : Still session after := by
  cases ran
  exact ⟨rfl, rfl, rfl, rfl⟩

theorem puts (name value : Text) : Takes Tidy (Run.put name value : Run σ Unit) :=
  .respecting Tidy.steps fun reference => Respects.put (Held.traceable reference).toCommandable name value

theorem reports (env : Env σ) (error : ScriptError) : Takes Tidy (Report.add env error) :=
  .respecting Tidy.steps fun reference => Report.add_respects (Held.traceable reference) env error

theorem advance_takes (env : Env σ) (depth : Nat) : Takes Tidy (advance env depth) := by
  refine Takes.read fun session => ?_
  split
  · exact Takes.pure Tidy.steps _ session
  · rename_i loop found
    dsimp only
    -- a list stays a list and a range a range, so the loop keeps its source
    have moves {source : LoopSource} {after : Session σ} (still : Still session after)
        (kept : ({ loop with source } : Loop).sourceKey? = loop.sourceKey?) :
        Tidy after ((Run.modifyFrame (·.modifyLoopAt depth ({ · with source })) : Run σ Unit).leaves after) := by
      refine Tidy.relabel (Frame.modifyLoopAt_same fun other place => ?_) rfl rfl rfl
      have same : other = loop := by
        simp only [Frame.loopAt?, still.loops] at place
        exact Option.some.inj (place.symm.trans found)
      subst same
      exact ⟨rfl, kept, id⟩
    split
    · rename_i fields position saved source
      split
      · exact Takes.pure Tidy.steps _ session
      · refine Takes.bindAt Tidy.steps (puts _ _ session) fun _ after ran => ?_
        refine Takes.bindAt Tidy.steps (moves (put_still ran) ?_) fun _ last _ => Takes.pure Tidy.steps _ last
        simp only [Loop.sourceKey?, source]
    · rename_i start stop current source
      refine Takes.bindAt Tidy.steps (moves (.refl session) ?_) fun _ after _ => ?_
      · simp only [Loop.sourceKey?, source]
      · split
        · exact Takes.pure Tidy.steps _ after
        · exact Takes.bind Tidy.steps (puts _ _) (fun _ => Takes.pure Tidy.steps _) after
    · exact Takes.respecting Tidy.steps
        (fun reference => askSource_respects (Held.traceable reference).toCommandable env .next _ _ _) session

theorem replayLines_takes (env : Env σ) {runLine : Text → Run σ Unit} (runs : ∀ text, Takes Tidy (runLine text))
    (conditions : Nat) (lines : List BodyLine) : Takes Tidy (replayLines env runLine conditions lines) := by
  induction lines with
  | nil => exact Takes.pure Tidy.steps _
  | cons line rest ih =>
      refine Takes.bind Tidy.steps (Takes.modifyFrame Tidy.steps fun _ => rfl) fun _ => ?_
      refine Takes.bind Tidy.steps (Takes.onError Tidy.steps (runs line.text) fun error => ?_) fun _ => ih
      refine Takes.bind Tidy.steps (Takes.modifyFrame Tidy.steps fun _ => rfl) fun _ => ?_
      exact Takes.bind Tidy.steps (reports env error) fun _ => Takes.fail Tidy.steps _

theorem replay_takes (env : Env σ) {runLine : Text → Run σ Unit} (runs : ∀ text, Takes Tidy (runLine text))
    (depth conditions : Nat) (lines : List BodyLine) (passes pass : Nat) :
    Takes Tidy (replay env runLine depth conditions lines passes pass) := by
  induction passes generalizing pass with
  | zero => exact Takes.throw Tidy.steps _
  | succ passes ih =>
      refine Takes.bind Tidy.steps (puts _ _) fun _ => ?_
      refine Takes.bind Tidy.steps (replayLines_takes env runs conditions lines) fun _ => Takes.read fun session => ?_
      split
      · exact Takes.pure Tidy.steps _ session
      · refine Takes.bind Tidy.steps (advance_takes env depth) (fun answer => ?_) session
        split
        · exact ih (pass + 1)
        · exact Takes.pure Tidy.steps _

theorem giveBack_takes (env : Env σ) (loop : Loop) : Takes Still (giveBack env loop) :=
  .respecting Still.steps fun reference => giveBack_respects (Held.traceable reference).toCommandable env loop

theorem closeLoop_leaves (env : Env σ) (loop : Loop) (session : Session σ) :
    Still (session.note loop (.released loop.sourceKey?)) ((closeLoop env loop).leaves session) :=
  giveBack_takes env loop (session.note loop (.released loop.sourceKey?))

/-- A loop that has come to the end of its last pass: it is where it was, and so are the loops around it. -/
structure ComesBack (loop : Loop) (outer : List Loop) (before after : Session σ) : Prop where
  sound : after.Sound
  callers : after.callers = before.callers
  stack : ∃ top now below, after.frame.loops = top ++ now :: below ∧ loop.Same now ∧
    List.Forall₂ Loop.Same outer below ∧ (top ≠ [] → now.isCollecting = false)
  untouched : ∀ other ∈ loop :: outer ++ before.waitingLoops, after.story other.serial = before.story other.serial

theorem finishLoop_leaves (env : Env σ) (depth resume : Nat) {session : Session σ} {now : Loop}
    (found : session.frame.loopAt? depth = some now) :
    ∃ after : Session σ, Still (after.note now (.released now.sourceKey?))
      ((finishLoop env depth resume).leaves session) ∧
      after.frame.loops = session.frame.loops.drop 1 ∧ after.callers = session.callers ∧
      after.loopCount = session.loopCount ∧ after.history = (session.noteEnd now).history := by
  let ended := session.noteEnd now
  have kept : ended.frame = session.frame ∧ ended.callers = session.callers ∧
      ended.loopCount = session.loopCount := by
    unfold ended Session.noteEnd
    split
    · exact ⟨rfl, rfl, rfl⟩
    · split <;> exact ⟨rfl, rfl, rfl⟩
  let after : Session σ :=
    { ended with frame := { ended.frame with line := resume, loops := ended.frame.loops.drop 1 } }
  have runs : (finishLoop env depth resume).leaves session = (closeLoop env now).leaves after := by
    rw [Run.leaves, finishLoop_found found]
    rfl
  refine ⟨after, ?_, ?_, kept.2.1, kept.2.2, rfl⟩
  · rw [runs]
    exact closeLoop_leaves env now after
  · simp only [after, kept.1]

theorem noteEnd_own {session : Session σ} {now : Loop} {below : List Loop}
    (stack : session.frame.loops = now :: below) : session.noteEnd now = session := by
  simp only [Session.noteEnd, stack, if_true]

theorem noteEnd_other {session : Session σ} {first now : Loop} {rest : List Loop}
    (stack : session.frame.loops = first :: rest) (differs : first.serial ≠ now.serial) :
    (session.noteEnd now).history = ⟨now.serial, .kept⟩ :: ⟨first.serial, .displaced⟩ :: session.history := by
  simp only [Session.noteEnd, stack, if_neg differs]
  rfl

theorem ComesBack.apart {floor : List Loop} {loop : Loop} {outer : List Loop} {before after : Session σ}
    (back : ComesBack loop outer before after) (above : Over floor outer) {top below : List Loop} {now : Loop}
    (stack : after.frame.loops = top ++ now :: below) (same : List.Forall₂ Loop.Same outer below) :
    ∀ other ∈ floor ++ before.waitingLoops,
      other.serial ∉ (top ++ [now]).map (·.serial) ∧ after.story other.serial = before.story other.serial := by
  intro other member
  have waiting : after.waitingLoops = before.waitingLoops := by simp only [Session.waitingLoops, back.callers]
  -- it stands below the loop that ends, or in a script that waits
  have below_mem : other.serial ∈ (below ++ after.waitingLoops).map (·.serial) := by
    rw [List.map_append, Loop.Same.serials same, waiting]
    rcases List.mem_append.mp member with standing | waits
    · exact List.mem_append_left _ (above.serial_mem standing)
    · exact List.mem_append_right _ (List.mem_map_of_mem waits)
  have distinct := back.sound.distinct
  rw [Session.openLoops, stack, ← List.singleton_append, ← List.append_assoc, List.append_assoc, List.map_append]
    at distinct
  refine ⟨fun above => (List.nodup_append'.mp distinct).2.2 above below_mem, ?_⟩
  have known : other.serial ∈ (loop :: outer ++ before.waitingLoops).map (·.serial) := by
    rw [List.cons_append, List.map_cons, List.map_append, ← Loop.Same.serials same, ← waiting, ← List.map_append]
    exact List.mem_cons_of_mem _ below_mem
  obtain ⟨found, inside, serial⟩ := List.mem_map.mp known
  rw [← serial]
  exact back.untouched found inside

/-- The loop that ends is the innermost one: it goes, and is released. -/
theorem ComesBack.pops {floor : List Loop} {loop : Loop} {outer : List Loop} {before after noted : Session σ}
    (back : ComesBack loop outer before after) (above : Over floor outer)
    (read : ∀ loop ∈ floor, loop.isCollecting = false) {now : Loop} {below : List Loop}
    (stack : after.frame.loops = now :: below) (around : List.Forall₂ Loop.Same outer below)
    (loops : noted.frame.loops = below) (callers : noted.callers = after.callers)
    (loopCount : noted.loopCount = after.loopCount)
    (events : noted.history = ⟨now.serial, .released now.sourceKey?⟩ :: after.history) : Moves floor before noted := by
  refine ⟨⟨back.sound.pop stack (.inl rfl) loops callers loopCount events, ?_, read⟩, callers.trans back.callers, ?_⟩
  · rw [loops]
    exact above.relabel around
  · intro other member
    have whole : after.frame.loops = [] ++ now :: below := stack
    obtain ⟨elsewhere, unchanged⟩ := back.apart above whole around other member
    rw [← unchanged, Session.story, events, stepsOf_other (by simpa using elsewhere), Session.story]

/-- The loop that ends is not the innermost one: the innermost one goes in its stead, and the one that ends is released
where it stands. -/
theorem ComesBack.keeps {floor : List Loop} {loop : Loop} {outer : List Loop} {before after noted : Session σ}
    (back : ComesBack loop outer before after) (above : Over floor outer)
    (read : ∀ loop ∈ floor, loop.isCollecting = false) {first now : Loop} {top below : List Loop}
    (stack : after.frame.loops = first :: top ++ now :: below) (around : List.Forall₂ Loop.Same outer below)
    (replayed : now.isCollecting = false) (story : after.story now.serial = [.opened now.sourceKey?])
    (differs : first.serial ≠ now.serial)
    (loops : noted.frame.loops = top ++ now :: below) (callers : noted.callers = after.callers)
    (loopCount : noted.loopCount = after.loopCount)
    (events : noted.history = ⟨now.serial, .released now.sourceKey?⟩ :: ⟨now.serial, .kept⟩ ::
      ⟨first.serial, .displaced⟩ :: after.history) : Moves floor before noted := by
  let between : Session σ :=
    { after with
      frame := { after.frame with loops := top ++ now :: below }
      history := ⟨first.serial, .displaced⟩ :: after.history }
  have sound : between.Sound := back.sound.pop stack (.inr (.inl rfl)) rfl rfl rfl rfl
  have standing : now ∈ between.openLoops := by simp [Session.openLoops, between]
  have fresh : between.story now.serial = [.opened now.sourceKey?] := by
    rw [Session.story, stepsOf_other differs.symm]
    exact story
  have taken : LoopStep.displaced ∈ between.story first.serial := by
    rw [Session.story, stepsOf_own]
    exact List.mem_cons_self
  refine ⟨⟨sound.keep standing fresh replayed ⟨_, taken⟩ loops callers loopCount events, ?_, read⟩,
    callers.trans back.callers, ?_⟩
  · rw [loops, ← List.singleton_append, ← List.append_assoc]
    exact (above.relabel around).above _
  · intro other member
    obtain ⟨elsewhere, unchanged⟩ := back.apart above stack around other member
    simp only [List.map_append, List.map_cons, List.map_nil, List.mem_append, List.mem_cons, not_or] at elsewhere
    rw [← unchanged, Session.story, events, stepsOf_other elsewhere.2.1, stepsOf_other elsewhere.2.1,
      stepsOf_other elsewhere.1.1, Session.story]

theorem finishLoop_moves (env : Env σ) (resume : Nat) {floor : List Loop} {loop : Loop} {outer : List Loop}
    {before after : Session σ} (ready : Ready floor before) (stack : before.frame.loops = loop :: outer)
    (collecting : loop.isCollecting = true) (back : ComesBack loop outer before after) :
    Moves floor before ((finishLoop env outer.length resume).leaves after) := by
  have above : Over floor outer := (stack ▸ ready.above).below_collecting ready.read collecting
  obtain ⟨top, now, below, loops, same, around, read⟩ := back.stack
  have found : after.frame.loopAt? outer.length = some now := by
    simp [Frame.loopAt?, loops, around.length_eq]
  -- a loop whose body was being read had only been opened
  have story : after.story now.serial = [.opened now.sourceKey?] := by
    rw [same.serial, back.untouched loop List.mem_cons_self, same.source]
    have stands := ready.sound.standing loop (by simp [Session.openLoops, stack])
    generalize before.story loop.serial = steps at stands ⊢
    cases stands with
    | «open» => rfl
    | ended done => rw [done] at collecting; cases collecting
  obtain ⟨popped, still, rest, callers, loopCount, history⟩ := finishLoop_leaves env outer.length resume found
  let noted := popped.note now (.released now.sourceKey?)
  suffices moved : Moves floor before noted from moved.trans (still.moves moved.ready)
  rw [loops] at rest
  cases top with
  | nil =>
      have events : noted.history = ⟨now.serial, .released now.sourceKey?⟩ :: after.history := by
        rw [noteEnd_own loops] at history
        simp only [noted, Session.note, history]
      exact back.pops above ready.read loops around rest callers loopCount events
  | cons first top =>
      have distinct := back.sound.distinct
      have differs : first.serial ≠ now.serial := by
        intro equal
        simp [Session.openLoops, loops, equal] at distinct
      have events : noted.history = ⟨now.serial, .released now.sourceKey?⟩ :: ⟨now.serial, .kept⟩ ::
          ⟨first.serial, .displaced⟩ :: after.history := by
        rw [noteEnd_other loops differs] at history
        simp only [noted, Session.note, history]
      exact back.keeps above ready.read loops around (read (List.cons_ne_nil _ _)) story differs rest callers loopCount
        events

def runPasses (env : Env σ) (runLine : Text → Run σ Unit) (frame : Frame) (loop : Loop) (outer : List Loop) :
    Run σ Answer :=
  if loop.mode = .reading then do
    Run.modifyFrame (·.modifyLoop ({ · with mode := .replaying }))
    Run.deeper 5 (replay env runLine outer.length frame.conditions.length loop.lines (budget env loop) 1)
  else pure .noMore

theorem endLoop_leaves (env : Env σ) (runLine : Text → Run σ Unit) {session : Session σ} {loop : Loop}
    {outer : List Loop}
    (stack : session.frame.loops = loop :: outer) :
    (endLoop env runLine).leaves session = (finishLoop env outer.length session.frame.line).leaves
      ((runPasses env runLine session.frame loop outer).leaves session) := by
  have answers (type : Text) (answer : Answer) (reached : Session σ) : (do
      if answer = .notFound then Run.fail (.flow .nextUndefined)
      if answer = .failed then Run.fail (.flow (.nextFailed type)) : Run σ Unit).leaves reached = reached := by
    by_cases unknown : answer = .notFound
    · simp only [unknown, if_true]
      rfl
    · by_cases failed : answer = .failed
      · simp only [failed, if_true]
        rfl
      · simp only [unknown, failed, if_false]
        rfl
  obtain ⟨type, unfolded⟩ : ∃ type, (endLoop env runLine).leaves session =
      (Run.always (runPasses env runLine session.frame loop outer) (finishLoop env outer.length session.frame.line) >>=
        fun answer => do
          if answer = .notFound then Run.fail (.flow .nextUndefined)
          if answer = .failed then Run.fail (.flow (.nextFailed type)) : Run σ Unit).leaves session := by
    simp only [Run.leaves, endLoop, bind, EStateM.bind, EStateM.get_apply, stack]
    exact ⟨_, rfl⟩
  rw [unfolded, leaves_bind, ← leaves_always]
  cases ran : Run.always (runPasses env runLine session.frame loop outer)
    (finishLoop env outer.length session.frame.line)
      session with
  | ok answer after =>
      have left : (Run.always (runPasses env runLine session.frame loop outer)
          (finishLoop env outer.length session.frame.line)).leaves session = after := by rw [Run.leaves, ran]
      exact (answers type answer after).trans left.symm
  | error exit after =>
      rw [Run.leaves, ran]

/-- The end of a body runs the loop and takes it, or what has come in its place, from the stack. -/
theorem endLoop_tidy (env : Env σ) {runLine : Text → Run σ Unit} (runs : ∀ text, Takes Tidy (runLine text))
    {session : Session σ} (collecting : session.frame.loops.head?.any Loop.isCollecting = true) :
    Tidy session ((endLoop env runLine).leaves session) := by
  intro floor ready
  cases stack : session.frame.loops with
  | nil =>
      rw [stack] at collecting
      cases collecting
  | cons loop outer =>
      rw [stack] at collecting
      have reads : loop.isCollecting = true := collecting
      let passes := runPasses env runLine session.frame loop outer
      have back : ComesBack loop outer session (passes.leaves session) := by
        have outerRead : ∀ other ∈ outer, other.isCollecting = false := by
          intro other member
          exact ready.sound.innermost session.frame List.mem_cons_self other (by rwa [stack])
        -- the passes run above the loop, which has to stay for them, and so belongs to their floor
        by_cases reading : loop.mode = .reading
        · let replaying : Loop := { loop with mode := .replaying }
          let started : Session σ :=
            { session with frame := session.frame.modifyLoop ({ · with mode := .replaying }) }
          have starts : passes.leaves session = (Run.deeper 5 (replay env runLine outer.length
              session.frame.conditions.length loop.lines (budget env loop) 1)).leaves started := by
            simp only [passes, runPasses, if_pos reading]
            rfl
          have startedStack : started.frame.loops = replaying :: outer := by
            simp only [started, Frame.modifyLoop, stack, List.modifyHead_cons, replaying]
          have sameLoops : List.Forall₂ Loop.Same session.frame.loops started.frame.loops := by
            rw [stack, startedStack]
            exact .cons ⟨rfl, rfl, nofun⟩ (Loop.Same.all_refl outer)
          have readyBody : Ready (replaying :: outer) started := by
            refine ⟨ready.sound.relabel sameLoops rfl rfl rfl, ⟨[], _, startedStack, Loop.Same.all_refl _⟩, ?_⟩
            intro other member
            rcases List.mem_cons.mp member with rfl | inside
            · rfl
            · exact outerRead other inside
          have moved : Moves (replaying :: outer) started (passes.leaves session) := by
            rw [starts]
            exact Takes.deeper Tidy.steps (replay_takes env runs _ _ _ _ _) started _ readyBody
          obtain ⟨⟨sound, ⟨top, rest, whole, stays⟩, _⟩, callers, untouched⟩ := moved
          cases stays with
          | cons same around =>
              refine ⟨sound, callers, ⟨top, _, _, whole, ⟨same.serial, same.source, fun _ => reads⟩, around, ?_⟩, ?_⟩
              · intro _
                exact same.read rfl
              · intro other member
                rcases List.mem_cons.mp (List.cons_append ▸ member) with rfl | inside
                · exact untouched replaying List.mem_cons_self
                · exact untouched other (List.mem_cons_of_mem _ inside)
        · have stays : passes.leaves session = session := by
            simp only [passes, runPasses, if_neg reading]
            rfl
          rw [stays]
          refine ⟨ready.sound, rfl, ⟨[], loop, outer, stack, .refl loop, Loop.Same.all_refl outer, nofun⟩, ?_⟩
          intro _ _
          rfl
      rw [endLoop_leaves env runLine stack]
      exact finishLoop_moves env session.frame.line ready stack reads back

end Flow

end CommandScript
