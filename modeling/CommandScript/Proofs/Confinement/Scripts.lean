import CommandScript.Proofs.Confinement.Commands

/-! Lines and scripts are confined, by induction on how deeply lines run further lines. A script file that runs without
an inline block gives back the frame, the scripts that wait and all scopes as it found them, on every way out. -/

namespace CommandScript

variable {σ α : Type}

open Run

/-- The exits of a line: a script returns only if another one waits for it. -/
def Exit.leavesLine (around : Surroundings) : Exit → Prop
  | returned => around.callers ≠ []
  | _ => True

def Exit.leavesScript : Exit → Prop
  | returned => False
  | _ => True

instance (around : Surroundings) : Exit.Plain (Exit.leavesLine around) where
  error _ := trivial
  exhausted := trivial
  conversion _ _ := trivial
  fault _ := trivial

instance : Exit.Plain Exit.leavesScript where
  error _ := trivial
  exhausted := trivial
  conversion _ _ := trivial
  fault _ := trivial

section Loops

variable {around : Surroundings} {leaves : Exit → Prop} [plain : Exit.Plain leaves]

namespace Flow

theorem replayLines_confined (env : Env σ) {runLine : Text → Run σ Unit}
    (lines : ∀ text, Confined around leaves (runLine text)) (conditions : Nat) (body : List BodyLine) :
    Confined around leaves (replayLines env runLine conditions body) := by
  induction body with
  | nil => exact Keeps.pure _
  | cons line rest ih =>
      refine Keeps.bind (Confined.modifyFrame _) fun _ => ?_
      refine Keeps.bind (Keeps.onError (lines line.text) (fun error => ?_) fun exit kind _ => kind) fun _ => ih
      refine Keeps.bind (Confined.modifyFrame _) fun _ => ?_
      exact Keeps.bind (Report.add_confined env error) fun _ => Keeps.fail _

theorem replay_confined (env : Env σ) {runLine : Text → Run σ Unit}
    (lines : ∀ text, Confined around leaves (runLine text)) (depth conditions : Nat) (body : List BodyLine)
    (passes pass : Nat) : Confined around leaves (replay env runLine depth conditions body passes pass) := by
  induction passes generalizing pass with
  | zero => exact Keeps.throw plain.exhausted
  | succ passes ih =>
      refine Keeps.bind (Keeps.put _ _) fun _ => ?_
      refine Keeps.bind (replayLines_confined env lines conditions body) fun _ => Keeps.read fun session => ?_
      split
      · exact Keeps.pure _
      · refine Keeps.bind (advance_confined env depth) fun answer => ?_
        split
        · exact ih (pass + 1)
        · exact Keeps.pure _

omit plain in
theorem noteEnd_surroundings (session : Session σ) (loop : Loop) :
    (session.noteEnd loop).surroundings = session.surroundings := by
  unfold Session.noteEnd
  split
  · rfl
  · split <;> rfl

theorem finishLoop_confined (env : Env σ) (depth resume : Nat) :
    Confined around leaves (finishLoop env depth resume) := by
  refine Keeps.read fun session => ?_
  cases session.frame.loopAt? depth with
  | none => exact Keeps.bind (Confined.modifyFrame _) fun _ => Keeps.pure _
  | some loop =>
      refine Keeps.bind (Confined.change fun session => noteEnd_surroundings session loop) fun _ => ?_
      exact Keeps.bind (Confined.modifyFrame _) fun _ => closeLoop_confined env loop

theorem endLoop_confined (env : Env σ) {runLine : Text → Run σ Unit}
    (lines : ∀ text, Confined around leaves (runLine text)) : Confined around leaves (endLoop env runLine) := by
  refine Keeps.read fun session => ?_
  dsimp only
  split
  · exact Keeps.pure _
  · refine Keeps.bind (Keeps.always ?_ (finishLoop_confined env _ _)) fun answer => ?_
    · split
      · refine Keeps.bind (Confined.modifyFrame _) fun _ => ?_
        exact Keeps.nested (replay_confined env lines _ _ _ _ _)
      · exact Keeps.pure _
    · exact Keeps.guard _ _ (Keeps.guard _ _ (Keeps.pure _))

end Flow

namespace Interpreter

theorem runLine_confined (env : Env σ) {exec : Text → Run σ Unit} (lines : ∀ text, Confined around leaves (exec text))
    (line : Text) : Confined around leaves (runLine env exec line) := by
  refine Keeps.bind (Confined.modifyFrame _) fun _ => ?_
  refine Keeps.bind (emit_confined env _ _) fun _ => ?_
  refine Keeps.bind (Keeps.onError (lines line) (fun error => ?_) fun exit kind _ => kind)
    fun _ => emit_confined env _ _
  refine Keeps.read fun session => ?_
  exact Keeps.bind (emit_confined env _ _) fun _ => Keeps.throw (plain.error _)

theorem collect_confined (env : Env σ) {exec : Text → Run σ Unit} (lines : ∀ text, Confined around leaves (exec text))
    (line : Text) : Confined around leaves (collect env exec line) := by
  refine Keeps.read fun session => ?_
  dsimp only
  refine Keeps.bind (Confined.modifyFrame _) fun _ => ?_
  split
  · exact Keeps.fail _
  · exact Flow.endLoop_confined env (runLine_confined env lines)
  · exact Confined.modifyFrame _

theorem parseString_confined {exec : Text → Run σ Unit} (lines : ∀ text, Confined around leaves (exec text))
    (rest : Text) : Confined around leaves (parseString exec rest) := by
  refine Keeps.bind (Command.require_confined _ _ _) fun _ => ?_
  exact Keeps.bind (Keeps.readVariable rest) fun stored => Keeps.nested (lines _)

theorem runBlock_confined {exec : Text → Run σ Unit} (lines : ∀ text, Confined around leaves (exec text))
    (block : Text) :
    Confined around leaves (runBlock exec block) := by
  refine Keeps.bind (Confined.change fun _ => rfl) fun _ => ?_
  refine Keeps.attempt_bind (Keeps.nested (lines block)) (fun _ => ?_) fun exit kind => ?_
  · intro session inside
    exact .ok inside
  · intro session inside
    exact .error inside kind

end Interpreter

end Loops

namespace Interpreter

variable {around : Surroundings}

/-- A `return` ends the script that runs it; the scripts that wait do not see it. -/
theorem runScriptLine_confined (env : Env σ) {exec : Text → Run σ Unit}
    (lines : ∀ text, Confined around (Exit.leavesLine around) (exec text)) (text : Text) (number : Nat) :
    Confined around Exit.leavesScript (runScriptLine env exec text number) := by
  refine Keeps.bind (Confined.modifyFrame _) fun _ => ?_
  refine Keeps.attempt_bind (runLine_confined env lines text) (fun _ => Keeps.pure _) fun exit kind => ?_
  cases exit with
  | returned =>
      refine Keeps.bind (Confined.modifyFrame _) fun _ => ?_
      exact Keeps.bind (Flow.abandonAll_confined env) fun _ => Keeps.pure _
  | error error => exact Keeps.bind (Report.add_confined env error) fun _ => Keeps.pure _
  | stopped code => exact Keeps.throw trivial
  | fault fault => exact Keeps.throw trivial
  | exhausted => exact Keeps.throw trivial

theorem runFolded_confined (env : Env σ) {exec : Text → Run σ Unit}
    (lines : ∀ text, Confined around (Exit.leavesLine around) (exec text)) (text : Text) (number : Nat) :
    Confined around Exit.leavesScript (runFolded env exec text number) := by
  unfold runFolded
  split
  · exact runScriptLine_confined env lines _ _
  · exact Keeps.pure _

theorem runScript_confined (env : Env σ) {exec : Text → Run σ Unit}
    (lines : ∀ text, Confined around (Exit.leavesLine around) (exec text)) (bound : Nat) (reader : Reader)
    (part : Option Lines.Open) (number : Nat) :
    Confined around Exit.leavesScript (runScript env exec bound reader part number) := by
  induction bound generalizing reader part number with
  | zero => exact Keeps.throw trivial
  | succ bound ih =>
      have goesOn (reader : Reader) (text : Text) (number : Nat) : Confined around Exit.leavesScript
          (do if ← runFolded env exec text number then runScript env exec bound reader none number) := by
        refine Keeps.bind (runFolded_confined env lines _ _) fun continues => ?_
        split
        · exact ih _ _ _
        · exact Keeps.pure _
      refine Keeps.read fun session => Keeps.bind (Keeps.ofFault _) fun given => ?_
      obtain ⟨raw, reader⟩ := given
      cases raw with
      | none =>
          cases part with
          | none => exact Keeps.pure _
          | some part => exact goesOn _ _ _
      | some raw =>
          have continues : Confined around Exit.leavesScript (do
              if (Lines.extend part raw).2.1 then
                runScript env exec bound reader (some (Lines.extend part raw).1) (number + 1)
              else if ← runFolded env exec (Lines.extend part raw).1.text (number + 1) then
                runScript env exec bound reader none (number + 1)) := by
            split
            · exact ih _ _ _
            · exact goesOn _ _ _
          dsimp only
          split
          · exact Keeps.bind (Keeps.report _) fun _ => continues
          · exact continues

theorem runOpened_confined (env : Env σ) {exec : Text → Run σ Unit}
    (lines : ∀ text, Confined around (Exit.leavesLine around) (exec text)) (place : Location) :
    Confined around Exit.leavesScript (runOpened env exec place) := by
  refine Keeps.bind (runScript_confined env lines _ _ _ _) fun _ => Keeps.read fun session => ?_
  refine Keeps.bind (Keeps.forM fun problem => Keeps.report _) fun _ => ?_
  exact Flow.abandonAll_confined env

end Interpreter

/-- The same script is running, for the same scripts, with the same scopes. -/
structure Unmoved (before after : Session σ) : Prop where
  frame : after.frame = before.frame
  callers : after.callers = before.callers
  scopes : after.store.scopes = before.store.scopes

theorem Unmoved.refl (session : Session σ) : Unmoved session session := ⟨rfl, rfl, rfl⟩

theorem Unmoved.surroundings {before after : Session σ} (unmoved : Unmoved before after) :
    after.surroundings = before.surroundings := by
  simp only [Session.surroundings, unmoved.callers, unmoved.scopes]

theorem Run.Keeps.confined {leaves : Exit → Prop} {program : Run σ α}
    (keeps : ∀ before, Keeps (Unmoved before) leaves program) (around : Surroundings) :
    Confined around leaves program := by
  intro session inside
  have kept := keeps session (.refl session)
  generalize program session = result at kept ⊢
  cases kept with
  | ok unmoved => exact .ok (unmoved.surroundings.trans inside)
  | error unmoved kind => exact .error (unmoved.surroundings.trans inside) kind

namespace Interpreter

def left (session : Session σ) : Session σ :=
  { session.noteLost with
    frame := session.callers.head?.getD session.frame
    callers := session.callers.drop 1
    store := { session.store with scopes := session.store.scopes.drop 1 } }

theorem left_unmoved {before after : Session σ}
    (inside : after.surroundings = ⟨before.frame :: before.callers, before.store.scopes⟩) :
      Unmoved before (left after) := by
  obtain ⟨callers, scopes⟩ := Surroundings.mk.inj inside
  refine ⟨?_, ?_, scopes⟩
  · simp only [left, callers, List.head?_cons, Option.getD_some]
  · simp only [left, callers, List.drop_one, List.tail_cons]

/-- A confined program in a frame and a scope of its own leaves no trace of them. -/
theorem inFrame_unmoved {program : Run σ Unit} (confined : ∀ around, Confined around Exit.leavesScript program)
    (frame : Frame) (scope : Scope) (before : Session σ) :
    Keeps (Unmoved before) Exit.leavesScript (do
      enterFrame frame scope
      Run.always program leaveFrame) := by
  intro session unmoved
  let entered : Session σ :=
    { session with frame, callers := session.frame :: session.callers, store := session.store.pushScope scope }
  have inside : entered.surroundings = ⟨before.frame :: before.callers, before.store.scopes⟩ := by
    rw [← unmoved.frame, ← unmoved.callers, ← unmoved.scopes]
    rfl
  have kept := confined _ inside
  change Kept (Unmoved before) Exit.leavesScript (Run.always program leaveFrame entered)
  cases ran : program entered with
  | ok value after =>
      rw [ran] at kept
      cases kept with
      | ok still =>
          have whole : Run.always program leaveFrame entered = .ok value (left after) := by
            simp only [Run.always, bind, EStateM.bind, Run.attempt, ran]
            rfl
          rw [whole]
          exact .ok (left_unmoved still)
  | error exit after =>
      rw [ran] at kept
      cases kept with
      | error still kind =>
          have whole : Run.always program leaveFrame entered = .error exit (left after) := by
            simp only [Run.always, bind, EStateM.bind, Run.attempt, ran]
            rfl
          rw [whole]
          exact .error (left_unmoved still) kind

theorem inFile_unmoved (env : Env σ) {exec : Text → Run σ Unit}
    (lines : ∀ around text, Confined around (Exit.leavesLine around) (exec text)) (path : Text) (place : Location)
    (scope : Scope) (before : Session σ) :
    Keeps (Unmoved before) Exit.leavesScript (Run.deeper 5 do
      enterFrame { path := some path } scope
      Run.always (runOpened env exec place) leaveFrame) := by
  refine Keeps.deeper (fun session depth unmoved => ⟨unmoved.frame, unmoved.callers, unmoved.scopes⟩) ?_
  exact inFrame_unmoved (fun around => runOpened_confined env (lines around) place) _ _ before

theorem parseFile_unmoved (env : Env σ) {exec : Text → Run σ Unit}
    (lines : ∀ around text, Confined around (Exit.leavesLine around) (exec text)) (path : Text) (before : Session σ) :
    Keeps (Unmoved before) Exit.leavesScript (parseFile env exec ⟨path, none⟩) := by
  refine Keeps.read fun session => ?_
  refine Keeps.bind (Keeps.check _ trivial (Keeps.check _ trivial (Keeps.pure _))) fun _ => ?_
  refine Keeps.read fun session => ?_
  refine Keeps.bind (Keeps.ofExcept (fun _ => trivial) _) fun place => ?_
  exact Keeps.bind (Keeps.pure _) fun scope => inFile_unmoved env lines _ place scope before

theorem parseFile_confined (env : Env σ) {exec : Text → Run σ Unit}
    (lines : ∀ around text, Confined around (Exit.leavesLine around) (exec text)) (target : ScriptTarget)
    (around : Surroundings) : Confined around (Exit.leavesLine around) (parseFile env exec target) := by
  refine Keeps.read fun session => Keeps.bind (FileArguments.checkPath_confined _) fun _ => ?_
  refine Keeps.read fun session => Keeps.bind (Keeps.ofExcept (fun _ => trivial) _) fun place => ?_
  extract_lets runs
  have confined (scope : Scope) : Confined around (Exit.leavesLine around) (runs scope) := by
    refine (Keeps.confined (inFile_unmoved env lines _ place scope) around).mono fun exit kind => ?_
    cases exit with
    | returned => exact kind.elim
    | _ => trivial
  split
  · split
    · exact Keeps.bind (Keeps.pure _) confined
    · exact Keeps.bind (runBlock_confined (lines around) _) confined
  · exact Keeps.bind (Keeps.pure _) confined

variable {around : Surroundings}

theorem runQuit_confined (env : Env σ) (rest : Text) :
    Confined around (Exit.leavesLine around) (Command.runQuit env rest) := by
  refine Keeps.read fun session => ?_
  dsimp only
  split
  · exact Keeps.pure _
  refine Keeps.check _ trivial ?_
  refine Keeps.bind (Words.substitute_confined env rest) fun text => ?_
  refine Keeps.bind (Keeps.ofFault _) fun code => ?_
  split
  · exact Keeps.throw trivial
  · exact Command.fail_confined _

theorem runLeaveFile_confined : Confined around (Exit.leavesLine around) (Command.runLeaveFile : Run σ Unit) := by
  intro session inside
  change Kept _ _ ((if session.inFile then throw .returned else Run.fail (.flow .unexpectedReturn) : Run σ Unit)
    session)
  split
  · rename_i waits
    refine .error inside ?_
    have callers : session.callers = around.callers := congrArg Surroundings.callers inside
    rw [Session.inFile, callers] at waits
    intro none
    rw [none] at waits
    cases waits
  · exact .error inside trivial

theorem runCommand_confined (env : Env σ) {exec : Text → Run σ Unit}
    (lines : ∀ around text, Confined around (Exit.leavesLine around) (exec text)) (command : Command) (rest : Text) :
    Confined around (Exit.leavesLine around) (runCommand env exec command rest) := by
  cases command with
  | addAlias => exact Command.runAlias_confined rest
  | removeAlias => exact Command.runUnalias_confined env rest
  | parse =>
      refine Keeps.read fun session => Keeps.bind (Keeps.ofFailure _) fun target => ?_
      exact parseFile_confined env lines target around
  | parseString => exact parseString_confined (lines around) rest
  | leaveFile => exact runLeaveFile_confined
  | quit => exact runQuit_confined env rest
  | relativePaths => exact Command.runRelativePaths_confined rest
  | leaveLoop => exact Command.runLeaveLoop_confined
  | _ => exact runPlain_confined env rfl rest

theorem runStatement_confined (env : Env σ) {exec : Text → Run σ Unit}
    (lines : ∀ around text, Confined around (Exit.leavesLine around) (exec text)) (line : Text) :
    Confined around (Exit.leavesLine around) (runStatement env exec line) := by
  unfold runStatement
  split
  · exact startLoop_confined env line
  split
  · exact Keeps.fail _
  split
  · exact Command.runShell_confined env _
  dsimp only
  split
  · exact runCommand_confined env lines _ _
  split
  · exact Keeps.bind (Expr.valueOf_confined env line) fun _ => Keeps.pure _
  · refine Keeps.bind (Command.assign_confined env line) fun assigned => ?_
    split
    · exact Command.dispatch_confined env line
    · exact Keeps.pure _

theorem statement_confined (env : Env σ) {exec : Text → Run σ Unit}
    (lines : ∀ around text, Confined around (Exit.leavesLine around) (exec text)) (text : Text) :
    Confined around (Exit.leavesLine around) (statement env exec text) := by
  unfold statement
  dsimp only
  split
  · exact Keeps.pure _
  refine Keeps.bind (Keeps.ofMalformed _) fun _ => Keeps.read fun session => ?_
  split
  · exact collect_confined env (lines around) _
  refine Keeps.bind (passConditions_confined env _ _) fun settled => ?_
  split
  · exact Keeps.pure _
  split
  · exact runStatement_confined env lines _
  · exact Keeps.pure _

/-- Lines are confined at every depth: a line runs statements, which run further lines one level below. -/
theorem execLine_confined (env : Env σ) (depth : Nat) (around : Surroundings) (line : Text) :
    Confined around (Exit.leavesLine around) (execLine env depth line) := by
  induction depth generalizing around line with
  | zero => exact Keeps.throw trivial
  | succ depth ih =>
      refine Keeps.bind (Keeps.ofMalformed _) fun texts => ?_
      exact Keeps.forM fun text => statement_confined env ih text

/-- A script file that runs without an inline block cannot disturb its callers. Whatever it holds and however it ends,
the running frame, the frames of the scripts that wait and all scopes are exactly what they were. -/
theorem parseFile_undisturbed (env : Env σ) (depth : Nat) (path : Text) (session : Session σ) :
    match parseFile env (execLine env depth) ⟨path, none⟩ session with
    | .ok _ after | .error _ after =>
      after.frame = session.frame ∧ after.callers = session.callers ∧ after.store.scopes = session.store.scopes := by
  have kept := parseFile_unmoved env (execLine_confined env depth) path session (.refl session)
  generalize parseFile env (execLine env depth) ⟨path, none⟩ session = result at kept ⊢
  cases kept with
  | ok unmoved => exact ⟨unmoved.frame, unmoved.callers, unmoved.scopes⟩
  | error unmoved _ => exact ⟨unmoved.frame, unmoved.callers, unmoved.scopes⟩

end Interpreter

end CommandScript
