import CommandScript.Proofs.Release.Loops

/-!
Every line of a script is tidy, so a script that is left has settled all of its loops: each was released,
displaced or lost. A loop is released exactly once unless it went from the stack in the place of another
one, or stayed there in its place.
-/

namespace CommandScript

variable {σ α : Type}

open Run

namespace Flow

theorem abandonLoops_takes (env : Env σ) (count : Nat) : Takes Sweeping (abandonLoops env count) := by
  induction count with
  | zero => exact Takes.pure Sweeping.steps _
  | succ count ih =>
      refine Takes.read fun session => ?_
      split
      · exact Takes.pure Sweeping.steps _ session
      · rename_i loop rest stack
        let popped : Session σ := { session with frame := { session.frame with loops := rest } }
        have closes : Sweeping session ((Run.onError (closeLoop env loop) (Report.add env)).leaves popped) := by
          refine Takes.onErrorAt Sweeping.steps ?_ fun error => (reports env error).weaken Tidy.sweeping
          intro ready
          have moved : Moves [] session (popped.note loop (.released loop.sourceKey?)) :=
            Moves.pop ready stack (.inl rfl) rfl rfl rfl rfl
          exact moved.trans ((closeLoop_leaves env loop popped).moves moved.ready)
        change Sweeping session
          ((Run.onError (closeLoop env loop) (Report.add env) >>= fun _ => abandonLoops env count).leaves popped)
        exact Takes.bindAt Sweeping.steps closes fun _ after _ => ih after

theorem abandonAll_takes (env : Env σ) : Takes Sweeping (abandonAll env) :=
  Takes.read fun session => abandonLoops_takes env session.frame.loops.length session

theorem bindFirst_takes (env : Env σ) (header : LoopHeader) : Takes Still (bindFirst env header) :=
  .respecting Still.steps fun reference => bindFirst_respects (Held.traceable reference).toCommandable env header

end Flow

namespace Interpreter

theorem emit_takes (env : Env σ) (event : Text) (args : List Text) : Takes Tidy (emit env event args) :=
  .respecting Tidy.steps fun reference => emit_respects (Held.traceable reference) env event args

theorem runLine_takes (env : Env σ) {exec : Text → Run σ Unit} (runs : ∀ text, Takes Tidy (exec text)) (line : Text) :
    Takes Tidy (runLine env exec line) := by
  refine Takes.bind Tidy.steps (Takes.modifyFrame Tidy.steps fun _ => rfl) fun _ => ?_
  refine Takes.bind Tidy.steps (emit_takes env _ _) fun _ => ?_
  refine Takes.bind Tidy.steps (Takes.onError Tidy.steps (runs line) fun error => ?_) fun _ => emit_takes env _ _
  refine Takes.read fun session => ?_
  exact Takes.bind Tidy.steps (emit_takes env _ _) (fun _ => Takes.throw Tidy.steps _) session

theorem passConditions_takes (env : Env σ) (leaving : Bool) (line : Text) :
    Takes Still (passConditions env leaving line) := by
  have sets (conditions : List Branch) : Takes Still (setConditions conditions : Run σ Unit) :=
    Takes.modifyFrame Still.steps fun _ => rfl
  have decides (word : ConditionWord) (text : Text) : Takes Still (decideCondition env word text) :=
    .respecting Still.steps fun reference =>
      decideCondition_respects (Held.traceable reference).toEvaluable env word text
  refine Takes.read fun session => ?_
  dsimp only
  split
  · exact Takes.pure Still.steps _ session
  · exact Takes.bind Still.steps (sets _) (fun _ => Takes.pure Still.steps _) session
  · exact Takes.fail Still.steps _ session
  · refine Takes.bind Still.steps (Takes.caught Still.steps (decides _ _)) (fun decided => ?_) session
    exact Takes.bind Still.steps (sets _) fun _ => Takes.ofExcept Still.steps _ _

theorem collect_tidy (env : Env σ) {exec : Text → Run σ Unit} (runs : ∀ text, Takes Tidy (exec text)) (line : Text)
    {session : Session σ} (collecting : session.frame.loops.head?.any Loop.isCollecting = true) :
    Tidy session ((collect env exec line).leaves session) := by
  let tracked : Session σ :=
    { session with frame := { session.frame with blocks := (session.frame.blocks.track line).1 } }
  have starts : Tidy session tracked := Tidy.steps.still ⟨rfl, rfl, rfl, rfl⟩
  have keeps : Takes Tidy (Run.modifyFrame (·.modifyLoop fun loop =>
      { loop with lines := loop.lines ++ [⟨line, session.frame.line⟩] }) : Run σ Unit) :=
    Takes.change fun _ => Tidy.relabel (Frame.modifyLoop_same fun _ => ⟨rfl, rfl, id⟩) rfl rfl rfl
  refine Tidy.steps.trans starts ?_
  rw [Run.leaves, collect_counted]
  cases (session.frame.blocks.track line).2 with
  | error error => exact (Takes.fail Tidy.steps (.flow error) : Takes Tidy (Run.fail _ : Run σ Unit)) tracked
  | ok ends =>
      cases ends with
      | false => exact keeps tracked
      | true => exact Flow.endLoop_tidy env (runLine_takes env runs) collecting

theorem all_read {session : Session σ} (sound : session.Sound)
    (read : session.frame.loops.head?.any Loop.isCollecting = false) :
    ∀ loop ∈ session.frame.loops, loop.isCollecting = false := by
  intro loop member
  cases stack : session.frame.loops with
  | nil =>
      rw [stack] at member
      cases member
  | cons first rest =>
      rw [stack] at member read
      rcases List.mem_cons.mp member with rfl | below
      · exact read
      · exact sound.innermost session.frame List.mem_cons_self loop (by rwa [stack])

theorem startLoop_tidy (env : Env σ) (line : Text) {session : Session σ}
    (read : session.frame.loops.head?.any Loop.isCollecting = false) :
    Tidy session ((startLoop env line).leaves session) := by
  refine Takes.bindAt Tidy.steps (Takes.ofExcept Tidy.steps _ _ session) fun header after parsed => ?_
  have same : after = session := Run.ofExcept_stays parsed
  subst same
  refine Takes.bindAt Tidy.steps ?_ fun _ counted reset => ?_
  · exact Tidy.steps.still ⟨rfl, rfl, rfl, rfl⟩
  have unread : Still after counted := by
    cases reset
    exact ⟨rfl, rfl, rfl, rfl⟩
  rw [Flow.openLoop, bind_assoc]
  refine Takes.bindAt Tidy.steps (Tidy.steps.still (Flow.bindFirst_takes env header counted)) fun loop bound ran => ?_
  have still : Still after bound := unread.trans ((Flow.bindFirst_takes env header).ended ran)
  intro floor ready
  refine Moves.push ready (all_read ready.sound ?_) rfl rfl rfl rfl rfl
  rw [still.loops]
  exact read

theorem runScriptLine_takes (env : Env σ) {exec : Text → Run σ Unit} (runs : ∀ text, Takes Tidy (exec text))
    (text : Text) (number : Nat) : Takes Sweeping (runScriptLine env exec text number) := by
  have lines := (runLine_takes env runs text).weaken Tidy.sweeping
  refine Takes.bind Sweeping.steps (Takes.modifyFrame Sweeping.steps fun _ => rfl) fun _ => ?_
  refine Takes.bind Sweeping.steps (Takes.attempt lines) fun result => ?_
  split
  · exact Takes.pure Sweeping.steps _
  · refine Takes.bind Sweeping.steps (Takes.modifyFrame Sweeping.steps fun _ => rfl) fun _ => ?_
    exact Takes.bind Sweeping.steps (Flow.abandonAll_takes env) fun _ => Takes.pure Sweeping.steps _
  · exact Takes.bind Sweeping.steps ((Flow.reports env _).weaken Tidy.sweeping) fun _ => Takes.pure Sweeping.steps _
  · exact Takes.throw Sweeping.steps _

theorem runFolded_takes (env : Env σ) {exec : Text → Run σ Unit} (runs : ∀ text, Takes Tidy (exec text))
    (text : Text) (number : Nat) : Takes Sweeping (runFolded env exec text number) := by
  unfold runFolded
  split
  · exact runScriptLine_takes env runs _ _
  · exact Takes.pure Sweeping.steps _

theorem report_takes (text : Text) : Takes Sweeping (Run.report text : Run σ Unit) :=
  .respecting Sweeping.steps fun reference => Respects.report (Held.traceable reference).toPrintable text

theorem runScript_takes (env : Env σ) {exec : Text → Run σ Unit} (runs : ∀ text, Takes Tidy (exec text))
    (bound : Nat) (reader : Reader) (part : Option Lines.Open) (number : Nat) :
    Takes Sweeping (runScript env exec bound reader part number) := by
  induction bound generalizing reader part number with
  | zero => exact Takes.throw Sweeping.steps _
  | succ bound ih =>
      have goesOn (text : Text) (count : Nat) (next : Run σ Unit) (rest : Takes Sweeping next) :
          Takes Sweeping (do if ← runFolded env exec text count then next : Run σ Unit) := by
        refine Takes.bind Sweeping.steps (runFolded_takes env runs text count) fun further => ?_
        split
        · exact rest
        · exact Takes.pure Sweeping.steps _
      refine Takes.read fun session => ?_
      refine Takes.bind Sweeping.steps (Takes.ofExcept Sweeping.steps _ _) (fun (raw, reader) => ?_) session
      cases raw with
      | none =>
          cases part with
          | none => exact Takes.pure Sweeping.steps _
          | some part => exact goesOn _ _ _ (ih _ _ _)
      | some raw =>
          dsimp only
          rcases Lines.extend part raw with ⟨part, follows, warns⟩
          have continues : Takes Sweeping (if follows then runScript env exec bound reader (some part) (number + 1)
              else do
                if ← runFolded env exec part.text (number + 1) then
                  runScript env exec bound reader none (number + 1) : Run σ Unit) := by
            split
            · exact ih _ _ _
            · exact goesOn _ _ _ (ih _ _ _)
          dsimp only
          split
          · exact Takes.bind Sweeping.steps (report_takes _) fun _ => continues
          · exact continues

theorem runOpened_takes (env : Env σ) {exec : Text → Run σ Unit} (runs : ∀ text, Takes Tidy (exec text))
    (place : Location) : Takes Sweeping (runOpened env exec place) := by
  refine Takes.bind Sweeping.steps (runScript_takes env runs _ _ _ _) fun _ => Takes.read fun session => ?_
  exact Takes.bind Sweeping.steps (Takes.forM Sweeping.steps fun _ => report_takes _)
    (fun _ => Flow.abandonAll_takes env) session

theorem runBlock_takes {exec : Text → Run σ Unit} (runs : ∀ text, Takes Tidy (exec text)) (block : Text) :
    Takes Tidy (runBlock exec block) := by
  have sets (f : Session σ → Store) : Takes Tidy
      (modify fun session => { session with store := f session } : Run σ Unit) :=
    Takes.change fun _ => Tidy.steps.still ⟨rfl, rfl, rfl, rfl⟩
  refine Takes.bind Tidy.steps (sets _) fun _ => ?_
  refine Takes.bind Tidy.steps (Takes.attempt (Takes.deeper Tidy.steps (runs block))) fun result => ?_
  refine Takes.read fun session => ?_
  refine Takes.bind Tidy.steps (sets _) (fun _ => ?_) session
  split
  · exact Takes.pure Tidy.steps _
  · exact Takes.throw Tidy.steps _

theorem runOpened_between (env : Env σ) {exec : Text → Run σ Unit} (runs : ∀ text, Takes Tidy (exec text))
    (frame : Frame) (empty : frame.loops = []) (scope : Scope) (place : Location) :
    Takes Restoring (do
      enterFrame frame scope
      Run.always (runOpened env exec place) leaveFrame : Run σ Unit) := by
  intro caller
  let entered : Session σ :=
    { caller with frame, callers := caller.frame :: caller.callers, store := caller.store.pushScope scope }
  let last := (runOpened env exec place).leaves entered
  have ends : (do
      enterFrame frame scope
      Run.always (runOpened env exec place) leaveFrame : Run σ Unit).leaves caller =
      { last.noteLost with
        frame := last.callers.head?.getD last.frame
        callers := last.callers.drop 1
        store := { last.store with scopes := last.store.scopes.drop 1 } } :=
    leaves_always (runOpened env exec place) leaveFrame entered
  rw [ends]
  have sweeps {floor : List Loop} (ready : Ready floor caller) : Moves [] entered last :=
    runOpened_takes env runs place entered (ready.enter empty rfl rfl rfl)
  constructor
  · intro floor ready
    have moved := sweeps ready
    let emptied : Session σ := { last.noteLost with frame := { last.frame with loops := [] } }
    obtain ⟨_, waiting, count, _⟩ := last.noteLost_kept last.frame.loops
    have lost : Moves [] last emptied := Moves.lose moved.ready rfl waiting count rfl
    have enters : entered.callers = caller.frame :: caller.callers := rfl
    refine Moves.through ready enters rfl (moved.trans lost) rfl ?_ ?_ rfl rfl
    · simp only [moved.callers, enters, List.head?_cons, Option.getD_some]
    · simp only [moved.callers, enters, List.drop_succ_cons, List.drop_zero]
  · intro sound
    have callers : last.callers = caller.frame :: caller.callers := (sweeps (.bottom sound)).callers
    simp only [callers, List.head?_cons, Option.getD_some]

theorem parseFile_steps {Rel : Session σ → Session σ → Prop} (steps : Steps Rel)
    (restores : ∀ {before after}, Restoring before after → Rel before after) (env : Env σ)
    {exec : Text → Run σ Unit} (runs : ∀ text, Takes Tidy (exec text)) (target : ScriptTarget)
    (blocks : ∀ block, target.block = some block → Takes Rel (runBlock exec block)) :
    Takes Rel (parseFile env exec target) := by
  have enters (place : Location) (path : Text) (scope : Scope) : Takes Rel (Run.deeper 5 do
      enterFrame { path := some path } scope
      Run.always (runOpened env exec place) leaveFrame : Run σ Unit) :=
    Takes.deeper steps ((runOpened_between env runs { path := some path } rfl scope place).weaken restores)
  refine Takes.read fun session => ?_
  dsimp only
  refine Takes.bind steps ?_ (fun _ => ?_) session
  · exact .respecting steps fun _ => FileArguments.checkPath_respects _
  refine Takes.read fun session => ?_
  refine Takes.bind steps (Takes.ofExcept steps _ _) (fun place => ?_) session
  split
  · rename_i block given
    split
    · exact Takes.bind steps (Takes.pure steps _) fun scope => enters place _ scope
    · exact Takes.bind steps (blocks block given) fun scope => enters place _ scope
  · exact Takes.bind steps (Takes.pure steps _) fun scope => enters place _ scope

theorem parseFile_takes (env : Env σ) {exec : Text → Run σ Unit} (runs : ∀ text, Takes Tidy (exec text))
    (target : ScriptTarget) : Takes Tidy (parseFile env exec target) :=
  parseFile_steps Tidy.steps (fun restoring => restoring.1) env runs target fun block _ => runBlock_takes runs block

theorem parseString_takes {exec : Text → Run σ Unit} (runs : ∀ text, Takes Tidy (exec text)) (rest : Text) :
    Takes Tidy (parseString exec rest) := by
  have requires : Takes Tidy (Command.require rest "parse_string" "argument" : Run σ Unit) :=
    .respecting Tidy.steps fun _ => Command.require_respects _ _ _
  have reads : Takes Tidy (Run.readVariable rest : Run σ (Option Text)) :=
    .respecting Tidy.steps fun reference => Respects.readVariable (Held.traceable reference).toEvaluable rest
  refine Takes.bind Tidy.steps requires fun _ => Takes.bind Tidy.steps reads fun stored => ?_
  exact Takes.deeper Tidy.steps (runs _)

theorem quitting_takes (env : Env σ) (rest : Text) :
    Takes Tidy (do
      match ← Run.ofFault (Number.parseInt (← Words.substitute env rest)) with
      | some code => throw (.stopped code)
      | none => Command.fail (.exitCode rest) : Run σ Unit) := by
  have substitutes : Takes Tidy (Words.substitute env rest) :=
    .respecting Tidy.steps fun reference => Words.substitute_respects (Held.traceable reference).toEvaluable env rest
  refine Takes.bind Tidy.steps substitutes fun text => ?_
  refine Takes.bind Tidy.steps (Takes.ofExcept Tidy.steps _ _) fun code => ?_
  split
  · exact Takes.throw Tidy.steps _
  · exact Takes.fail Tidy.steps _

theorem runQuit_takes (env : Env σ) (rest : Text) : Takes Tidy (Command.runQuit env rest) := by
  refine Takes.read fun session => ?_
  dsimp only
  split
  · exact Takes.pure Tidy.steps _ session
  · split
    · exact Takes.bind Tidy.steps (Takes.throw Tidy.steps _) (fun _ => quitting_takes env rest) session
    · exact quitting_takes env rest session

theorem runCommand_takes (env : Env σ) {exec : Text → Run σ Unit} (runs : ∀ text, Takes Tidy (exec text))
    (command : Command) (rest : Text) : Takes Tidy (runCommand env exec command rest) := by
  cases plain : command.isPlain with
  | true =>
      exact .respecting Tidy.steps fun reference =>
        runCommand_respects (Held.traceable reference).toCommandable env exec plain rest
  | false =>
      cases command with
      | addAlias => exact Command.runAlias_takes rest
      | removeAlias => exact Command.runUnalias_takes env rest
      | parse =>
          refine Takes.read fun session => ?_
          exact Takes.bind Tidy.steps (Takes.ofExcept Tidy.steps _ _) (fun _ => parseFile_takes env runs _) session
      | parseString => exact parseString_takes runs rest
      | leaveFile =>
          refine Takes.read fun session => ?_
          split
          · exact Takes.throw Tidy.steps _ session
          · exact Takes.fail Tidy.steps _ session
      | quit => exact runQuit_takes env rest
      | relativePaths =>
          change Takes Tidy (Command.runRelativePaths rest)
          unfold Command.runRelativePaths
          split
          · exact Takes.modifyFrame Tidy.steps fun _ => rfl
          · exact Takes.fail Tidy.steps _
      | leaveLoop => exact Command.runLeaveLoop_takes
      | _ => cases plain

theorem runStatement_tidy (env : Env σ) {exec : Text → Run σ Unit} (runs : ∀ text, Takes Tidy (exec text)) (line : Text)
    {session : Session σ} (read : session.frame.loops.head?.any Loop.isCollecting = false) :
    Tidy session ((runStatement env exec line).leaves session) := by
  have plain {program : Run σ Unit} (respects : ∀ reference : Session σ, Commandable (Held reference) →
      Respects (Held reference) program) : Tidy session (program.leaves session) :=
    Takes.respecting Tidy.steps (fun reference => respects reference (Held.traceable reference).toCommandable) session
  unfold runStatement
  split
  · exact startLoop_tidy env line read
  · split
    · exact Takes.fail Tidy.steps _ session
    · split
      · exact plain fun _ commandable => Command.runShell_respects commandable.toPrintable env _
      · dsimp only
        split
        · exact runCommand_takes env runs _ _ session
        · split
          · exact plain fun _ commandable =>
              Respects.bind (Expr.valueOf_respects commandable.toEvaluable env line) fun _ => Respects.pure _
          · refine plain fun _ commandable => ?_
            refine Respects.bind (Command.assign_respects commandable env line) fun assigned => ?_
            split
            · exact Command.dispatch_respects commandable.toPrintable env line
            · exact Respects.pure _

theorem statement_takes (env : Env σ) {exec : Text → Run σ Unit} (runs : ∀ text, Takes Tidy (exec text)) (text : Text) :
    Takes Tidy (statement env exec text) := by
  unfold statement
  dsimp only
  split
  · exact Takes.pure Tidy.steps _
  · refine Takes.bind Tidy.steps (Takes.ofExcept Tidy.steps _ _) fun _ => Takes.read fun session => ?_
    split
    · rename_i collecting
      exact collect_tidy env runs _ collecting
    · rename_i notCollecting
      have read : session.frame.loops.head?.any Loop.isCollecting = false := Bool.eq_false_iff.mpr notCollecting
      refine Takes.bindAt Tidy.steps (Tidy.steps.still (passConditions_takes env _ _ session)) fun done after ran => ?_
      -- deciding a condition opens no loop
      have still : Still session after := (passConditions_takes env _ _).ended ran
      split
      · exact Takes.pure Tidy.steps _ after
      · split
        · exact runStatement_tidy env runs _ (still.loops ▸ read)
        · exact Takes.pure Tidy.steps _ after

theorem execLine_takes (env : Env σ) (depth : Nat) (line : Text) : Takes Tidy (execLine env depth line) := by
  induction depth generalizing line with
  | zero => exact Takes.throw Tidy.steps _
  | succ depth ih =>
      refine Takes.bind Tidy.steps (Takes.ofExcept Tidy.steps _ _) fun texts => ?_
      exact Takes.forM Tidy.steps fun text => statement_takes env ih text

end Interpreter

/-- In a settled history a loop is released exactly once unless it went from the stack in the place of
another one without having ended, or stayed there when it ended and was released again. -/
theorem Settled.released_once {steps : List LoopStep} (settled : Settled steps) (source : Option SourceKey)
    (opened : .opened source ∈ steps) :
    (steps.count (.released source) = 1 ↔ (.kept ∈ steps ↔ .displaced ∈ steps ∨ .lost ∈ steps)) ∧
      ∀ other, .released other ∈ steps → other = source := by
  cases settled with
  | released loop steps stands => cases stands <;> simp_all
  | displaced loop steps stands => cases stands <;> simp_all
  | lost loop steps stands => cases stands <;> simp_all

theorem Session.Sound.begin {session : Session σ} (idle : ∀ frame ∈ session.frame :: session.callers, frame.loops = [])
    (fresh : session.history = []) : session.Sound := by
  have waiting : session.waitingLoops = [] := by
    refine List.flatMap_eq_nil_iff.mpr fun frame member => ?_
    exact idle frame (List.mem_cons_of_mem _ member)
  have none : session.openLoops = [] := by
    rw [openLoops, waiting, idle session.frame List.mem_cons_self]
    rfl
  have stories (serial : Nat) : session.story serial = [] := by
    simp only [story, fresh, stepsOf, List.filter_nil, List.map_nil]
  refine ⟨?_, ?_, ?_, ?_, ?_, ?_, ?_⟩
  · simp [none]
  · simp [none]
  · intro serial _
    exact stories serial
  · simp [none]
  · intro serial _ told
    exact absurd (stories serial) told
  · intro frame member loop inside
    rw [idle frame member] at inside
    cases inside
  · intro serial kept
    rw [stories] at kept
    cases kept

/-- Every loop that is opened while a script runs has been settled when the script is left, whatever way
it is left. Its source is asked to stop exactly once if and only if it is not so that the loop either
went from the stack without having ended, in the place of another loop or with its script, or stayed on
the stack when it ended and went from there by being released again. Where no loop takes the place of
another one and none is lost, every source is asked to stop exactly once. -/
theorem parseFile_releases (env : Env σ) (depth : Nat) (target : ScriptTarget) (unblocked : target.block = none)
    (start : Session σ) (idle : ∀ frame ∈ start.frame :: start.callers, frame.loops = [])
    (fresh : start.history = []) :
    let after := (Interpreter.parseFile env (Interpreter.execLine env depth) target).leaves start
    ∀ serial source, .opened source ∈ after.story serial →
      ((after.story serial).count (.released source) = 1 ↔
        (.kept ∈ after.story serial ↔ .displaced ∈ after.story serial ∨ .lost ∈ after.story serial)) ∧
      (∀ other, .released other ∈ after.story serial → other = source) ∧
      ((∀ other, .displaced ∉ after.story other ∧ .lost ∉ after.story other) →
        (after.story serial).count (.released source) = 1) := by
  intro after serial source opened
  have sound := Session.Sound.begin idle fresh
  have runs := Interpreter.execLine_takes env depth
  have restored : Restoring start after := by
    refine Interpreter.parseFile_steps Restoring.steps id env runs target ?_ start
    intro block given
    rw [unblocked] at given
    cases given
  have moved := restored.1 [] (.bottom sound)
  have none : after.openLoops = [] := by
    rw [Session.openLoops, restored.2 sound, idle start.frame List.mem_cons_self, Session.waitingLoops, moved.callers]
    refine List.flatMap_eq_nil_iff.mpr fun frame member => ?_
    exact idle frame (List.mem_cons_of_mem _ member)
  have settled : Settled (after.story serial) := by
    refine moved.ready.sound.settled serial (by simp [none]) ?_
    exact List.ne_nil_of_mem opened
  obtain ⟨exactly, same⟩ := settled.released_once source opened
  refine ⟨exactly, same, ?_⟩
  intro orderly
  refine exactly.mpr ⟨?_, ?_⟩
  · intro kept
    obtain ⟨other, displaced⟩ := moved.ready.sound.paired serial kept
    exact absurd displaced (orderly other).1
  · rintro (displaced | lost)
    · exact absurd displaced (orderly serial).1
    · exact absurd lost (orderly serial).2

def Source.single : Source Unit := fun verb _ _ host =>
  ({ result := .ok (if verb = .start then .more else .noMore) }, host)

def tangledScript : Text := "foreach(things,i)\nparse_string 'foreach(things,k)'\nendfor\n"

theorem tangledScript_releases :
    let env : Env Unit := { services := { sources := [("things", Source.single)] }, passes := 10 }
    let start : Session Unit :=
      Session.start {} () { files := [(["f"], tangledScript.map fun c => UInt8.ofNat c.toNat)] }
    let after := (Interpreter.parseFile env (Interpreter.execLine env 3) ⟨"f", none⟩).leaves start
    let outer := some ⟨none, "things", "i"⟩
    ((∀ frame ∈ start.frame :: start.callers, frame.loops = []) ∧ start.history = []) ∧
      after.story 0 = [.released outer, .released outer, .kept, .opened outer] ∧
      ((after.story 0).count (.released outer) = 1 ↔
        (.kept ∈ after.story 0 ↔ .displaced ∈ after.story 0 ∨ .lost ∈ after.story 0)) ∧
      (∀ other, .released other ∈ after.story 0 → other = outer) ∧
      ((∀ other, .displaced ∉ after.story other ∧ .lost ∉ after.story other) →
        (after.story 0).count (.released outer) = 1) := by
  dsimp only
  exact ⟨⟨by simp [Session.start], rfl⟩, by decide +kernel,
    parseFile_releases _ 3 ⟨"f", none⟩ rfl _ (by simp [Session.start]) rfl 0 _ (by decide +kernel)⟩

end CommandScript
