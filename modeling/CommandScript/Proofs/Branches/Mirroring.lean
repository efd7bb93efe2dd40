import CommandScript.Proofs.Branches.Recording

/-! A recorded run comes to the same as the run itself. Programs that run no lines leave the stacks alone; the
condition of a chain, the end of a body that has failed and the ways into a script and out of it each move them
once. -/

namespace CommandScript

variable {σ α β : Type}

open Run

def AtBranches (reference left right : Session σ) : Prop := left = right ∧ left.branches = reference.branches

theorem Session.branches_congr {before after : Session σ} (frame : after.frame = before.frame)
    (callers : after.callers = before.callers) : after.branches = before.branches := by
  simp only [branches, frame, callers]

theorem AtBranches.traceable (reference : Session σ) : Traceable (AtBranches reference) :=
  SameWith.traceable fun _ _ same frame callers _ _ => (Session.branches_congr frame callers).trans same

theorem AtBranches.notable (reference : Session σ) : Notable (AtBranches reference) :=
  SameWith.notable fun _ _ same frame callers => (Session.branches_congr frame callers).trans same

def Rests (program : Run σ α) : Prop := ∀ branches, Keeps (fun session => session.branches = branches) Exit.any program

namespace Rests

variable {program : Run σ α}

theorem mirrors (rests : Rests program) : Mirrors (Recorded.step program) program := by
  refine fun session => .step ?_
  have still {after : Session σ} (same : after.branches = session.branches) :
      Transition session.branches after.branches := same ▸ .shifts _ (.refl _)
  exact (rests session.branches rfl).meets.mono (fun _ _ => still) fun _ _ => still

theorem respecting (respects : ∀ reference, Respects (AtBranches reference) program) : Rests program := by
  intro branches session holds
  have linked := @respects session session session ⟨rfl, rfl⟩
  generalize program session = result at linked ⊢
  cases linked with
  | ok unmoved => exact .ok (unmoved.2.trans holds)
  | error unmoved => exact .error (unmoved.2.trans holds) trivial

theorem pure (value : α) : Rests (pure value : Run σ α) := fun _ => Keeps.pure value

theorem throw (exit : Exit) : Rests (throw exit : Run σ α) := fun _ => Keeps.throw trivial

theorem bind {next : α → Run σ β} (first : Rests program) (second : ∀ value, Rests (next value)) :
    Rests (program >>= next) := fun branches => Keeps.bind (first branches) fun value => second value branches

theorem read {next : Session σ → Run σ α} (second : ∀ session, Rests (next session)) : Rests (get >>= next) :=
  fun branches => Keeps.read fun session => second session branches

theorem change {f : Session σ → Session σ} (kept : ∀ session, (f session).branches = session.branches) :
    Rests (modify f : Run σ Unit) := fun _ => Keeps.change fun session same => (kept session).trans same

theorem modifyFrame {f : Frame → Frame} (kept : ∀ frame, (f frame).conditions = frame.conditions) :
    Rests (Run.modifyFrame f : Run σ Unit) :=
  change fun session => by simp only [Session.branches, kept]

theorem forM {items : List β} {each : β → Run σ PUnit} (rests : ∀ item, Rests (each item)) :
    Rests (items.forM each) := fun branches => Keeps.forM fun item => rests item branches

theorem check (refused : Prop) [Decidable refused] (exit : Exit) (goesOn : Rests program) :
    Rests (if refused then (do let _ ← (MonadExcept.throw exit : Run σ PUnit); program) else program) :=
  fun branches => Keeps.check refused trivial (goesOn branches)

end Rests

namespace Report

theorem add_rests (env : Env σ) (error : ScriptError) : Rests (Report.add env error) :=
  .respecting fun reference => add_respects (AtBranches.traceable reference) env error

end Report

namespace Flow

variable (env : Env σ)

theorem closeLoop_rests (loop : Loop) : Rests (closeLoop env loop) :=
  .respecting fun reference => closeLoop_respects (AtBranches.notable reference) env loop

theorem abandonLoops_rests (count : Nat) : Rests (abandonLoops env count) := by
  induction count with
  | zero => exact .pure _
  | succ count ih =>
      refine .read fun session => ?_
      split
      · exact .pure _
      · refine .bind (.modifyFrame fun _ => rfl) fun _ => .bind ?_ fun _ => ih
        exact fun branches => Keeps.onError (closeLoop_rests env _ branches)
          (fun error => Report.add_rests env error branches)
          fun _ _ _ => (trivial : Exit.any _)

theorem abandonAll_rests : Rests (abandonAll env) := .read fun _ => abandonLoops_rests env _

theorem advance_rests (depth : Nat) : Rests (advance env depth) := by
  have puts (name value : Text) : Rests (Run.put name value : Run σ Unit) := .change fun _ => rfl
  have moves (source : LoopSource) : Rests
      (Run.modifyFrame (·.modifyLoopAt depth fun loop => { loop with source }) : Run σ Unit) :=
    .modifyFrame fun _ => rfl
  refine .read fun session => ?_
  split
  · exact .pure _
  dsimp only
  split
  · split
    · exact .pure _
    · exact .bind (puts _ _) fun _ => .bind (moves _) fun _ => .pure _
  · refine .bind (moves _) fun _ => ?_
    split
    · exact .pure _
    · exact .bind (puts _ _) fun _ => .pure _
  · exact .respecting fun reference => askSource_respects (AtBranches.traceable reference).toCommandable env _ _ _ _

theorem finishLoop_rests (depth resume : Nat) : Rests (finishLoop env depth resume) := by
  have drops : Rests
      (Run.modifyFrame fun frame => { frame with line := resume, loops := frame.loops.drop 1 } : Run σ Unit) :=
    .modifyFrame fun _ => rfl
  refine .read fun session => ?_
  cases session.frame.loopAt? depth with
  | none => exact .bind drops fun _ => .pure _
  | some loop =>
      refine .bind (.change fun session => ?_) fun _ => .bind drops fun _ => closeLoop_rests env loop
      simp only [Session.branches, Session.noteEnd_frame, (session.noteEnd_kept loop).2.1]

end Flow

namespace Interpreter

variable (env : Env σ)

theorem emit_rests (event : Text) (args : List Text) : Rests (emit env event args) :=
  .respecting fun reference => emit_respects (AtBranches.traceable reference) env event args

theorem startLoop_rests (line : Text) : Rests (startLoop env line) := by
  refine .bind (.respecting fun _ => Respects.ofCause _) fun header => .bind (.modifyFrame fun _ => rfl) fun _ => ?_
  refine .bind (.respecting fun reference => Flow.openLoop_respects (AtBranches.notable reference) env header)
    fun loop => ?_
  exact .modifyFrame fun _ => rfl

theorem runAlias_rests (rest : Text) : Rests (Command.runAlias rest : Run σ Unit) := by
  have writes (text : Text) : Rests (Run.writeLine text : Run σ Unit) :=
    .respecting fun reference => Respects.writeLine (AtBranches.traceable reference).toPrintable text
  refine .read fun session => ?_
  dsimp only
  split
  · split
    · exact .bind (writes _) fun _ => .forM fun _ => writes _
    · exact .forM fun _ => writes _
  · exact .bind (.respecting fun _ => Respects.ofExcept _ _) fun _ => .modifyFrame fun _ => rfl

theorem runUnalias_rests (rest : Text) : Rests (Command.runUnalias env rest) := by
  refine .bind (.respecting fun _ => Command.require_respects _ _ _) fun _ => .read fun session => .forM fun name => ?_
  refine .read fun reached => .bind (.modifyFrame fun _ => rfl) fun _ => ?_
  split
  · exact .respecting fun reference => Respects.writeLine (AtBranches.traceable reference).toPrintable _
  · exact .pure _

theorem runQuit_rests (rest : Text) : Rests (Command.runQuit env rest) := by
  refine .read fun session => ?_
  dsimp only
  split
  · exact .pure _
  refine .check _ _ (.bind (.respecting fun reference =>
    Words.substitute_respects (AtBranches.traceable reference).toEvaluable env rest) fun text => ?_)
  refine .bind (.respecting fun _ => Respects.ofFault _) fun code => ?_
  split
  · exact .throw _
  · exact .throw _

theorem runCommand_rests (exec : Text → Run σ Unit) {command : Command}
    (single : ¬(command = .parse ∨ command = .parseString)) (rest : Text) :
    Rests (runCommand env exec command rest) := by
  by_cases plain : command.isPlain
  · exact .respecting fun reference =>
      runCommand_respects (AtBranches.traceable reference).toCommandable env exec plain rest
  cases command with
  | addAlias => exact runAlias_rests rest
  | removeAlias => exact runUnalias_rests env rest
  | parse => exact absurd (.inl rfl) single
  | parseString => exact absurd (.inr rfl) single
  | leaveFile =>
      refine .read fun session => ?_
      split
      · exact .throw _
      · exact .throw _
  | quit => exact runQuit_rests env rest
  | relativePaths =>
      unfold runCommand Command.runRelativePaths
      dsimp only
      split
      · exact .modifyFrame fun _ => rfl
      · exact .throw _
  | leaveLoop => exact .read fun session => .check _ _ (.modifyFrame fun _ => rfl)
  | _ => exact absurd rfl plain

theorem runStatement_rests {line : Text} (single : Recorded.opener? line = none) (exec : Text → Run σ Unit) :
    Rests (runStatement env exec line) := by
  unfold runStatement
  split
  · exact startLoop_rests env line
  rename_i notForeach
  split
  · exact .throw _
  rename_i notEndfor
  split
  · exact .respecting fun reference => Command.runShell_respects (AtBranches.traceable reference).toPrintable env _
  rename_i notShell
  dsimp only
  split
  · rename_i command found
    have known : commandOf? line = some command := by rw [commandOf?, if_neg notShell, found]
    have other : ¬(command = .parse ∨ command = .parseString) := by
      simpa [Recorded.opener?, notForeach, notEndfor, known, Option.filter_some] using single
    exact runCommand_rests env exec other _
  · split
    · exact .respecting fun reference => Respects.bind
        (Expr.valueOf_respects (AtBranches.traceable reference).toEvaluable env line) fun _ => Respects.pure _
    · refine .bind (.respecting fun reference =>
        Command.assign_respects (AtBranches.traceable reference).toCommandable env line) fun assigned => ?_
      split
      · exact .respecting fun reference =>
          Command.dispatch_respects (AtBranches.traceable reference).toPrintable env line
      · exact .pure _

theorem runStatement_single {line : Text} (single : Recorded.opener? line = none) (exec exec' : Text → Run σ Unit) :
    runStatement env exec line = runStatement env exec' line := by
  unfold runStatement
  split
  · rfl
  rename_i notForeach
  split
  · rfl
  rename_i notEndfor
  split
  · rfl
  rename_i notShell
  dsimp only
  cases found : Command.of? (Text.cutOrAll ' ' line).1 with
  | none => rfl
  | some command =>
      have known : commandOf? line = some command := by rw [commandOf?, if_neg notShell, found]
      have other : ¬(command = .parse ∨ command = .parseString) := by
        simpa [Recorded.opener?, notForeach, notEndfor, known, Option.filter_some] using single
      cases command with
      | parse => exact absurd (.inl rfl) other
      | parseString => exact absurd (.inr rfl) other
      | _ => rfl

theorem runStatement_opener {line : Text} {command : Command} (found : Recorded.opener? line = some command)
    (exec : Text → Run σ Unit) :
    runStatement env exec line = runCommand env exec command (Text.trim (Text.cutOrAll ' ' line).2) ∧
      (command = .parse ∨ command = .parseString) := by
  unfold Recorded.opener? at found
  split at found
  · cases found
  rename_i apart
  obtain ⟨known, kind⟩ := Option.filter_eq_some_iff.mp found
  refine ⟨?_, of_decide_eq_true kind⟩
  simp only [not_or, Bool.not_eq_true] at apart
  unfold commandOf? at known
  split at known
  · cases known
  · rename_i notShell
    unfold runStatement
    simp only [apart, notShell, known, Bool.false_eq_true, ↓reduceIte]

theorem passConditions_moves {session : Session σ} (layered : ∀ stack ∈ session.branches, Flow.Layered stack)
    (leaving : Bool) (line : Text) :
    Meets (fun _ after => Transition session.branches after.branches)
      (fun _ after => Transition session.branches after.branches) (passConditions env leaving line) session := by
  have lawful := Flow.judge_lawful (layered _ List.mem_cons_self) leaving line
  have rests : Transition session.branches session.branches := .shifts _ (.refl _)
  refine Meets.read ?_
  dsimp only
  cases judged : Flow.judge leaving session.frame.conditions line with
  | runs => exact Meets.pure rests
  | failed error => exact Meets.throw rests
  | consumed after =>
      rw [judged] at lawful
      exact Meets.change_bind (Meets.pure (.shifts _ lawful))
  | asks word text =>
      rw [judged] at lawful
      have decides : Rests (decideCondition env word text) :=
        .respecting fun reference => decideCondition_respects (AtBranches.traceable reference).toEvaluable env word text
      have settles {reached : Session σ} (same : reached.branches = session.branches)
        (decided : Except ScriptError Bool) :
          Transition session.branches (Session.branches
            { reached with frame :=
              { reached.frame with conditions := Flow.settle word decided session.frame.conditions } }) := by
        have callers := (List.cons.inj same).2
        simp only [Session.branches, callers]
        exact .shifts _ (Flow.settle_shifts_asked lawful decided)
      refine Meets.caught_bind (decides session.branches rfl).meets (fun taken reached same => ?_)
        (fun error reached same => ?_) fun exit reached same _ => same ▸ rests
      · exact Meets.change_bind (Meets.pure (settles same (.ok taken)))
      · exact Meets.change_bind (Meets.throw (settles same (.error error)))

theorem passConditions_turns {session after : Session σ} {leaving passed : Bool} {line : Text}
    (starts : Flow.startsBranch line) (ended : passConditions env leaving line session = .ok passed after) :
    ∃ old new callers, session.branches = old :: callers ∧ after.branches = new :: callers ∧ Flow.Turned old new := by
  have turns := Flow.judge_turns starts leaving session.frame.conditions
  have meets : Meets (fun _ after => after.callers.map (·.conditions) = session.callers.map (·.conditions) ∧
      Flow.Turned session.frame.conditions after.frame.conditions) (fun _ _ => True)
      (passConditions env leaving line) session := by
    refine Meets.read ?_
    dsimp only
    cases judged : Flow.judge leaving session.frame.conditions line with
    | runs =>
        rw [judged] at turns
        exact turns.elim
    | failed error => exact Meets.throw trivial
    | consumed after =>
        rw [judged] at turns
        exact Meets.change_bind (Meets.pure ⟨rfl, turns⟩)
    | asks word text =>
        rw [judged] at turns
        obtain ⟨rfl, waits⟩ := turns
        have decides : Rests (decideCondition env .continuing text) := .respecting fun reference =>
          decideCondition_respects (AtBranches.traceable reference).toEvaluable env .continuing text
        refine Meets.caught_bind (decides session.branches rfl).meets (fun taken reached same => ?_)
          (fun error reached same => Meets.change_bind (Meets.throw trivial)) fun _ _ _ _ => trivial
        exact Meets.change_bind (Meets.pure ⟨(List.cons.inj same).2, .waiting waits _⟩)
  unfold Meets at meets
  rw [ended] at meets
  cases meets with
  | ok turned => exact ⟨_, _, _, rfl, congrArg (after.frame.conditions :: ·) turned.1, turned.2⟩

theorem passConditions_step {session : Session σ} (layered : ∀ stack ∈ session.branches, Flow.Layered stack)
    (leaving : Bool) (line : Text) :
    IsStepAs (fun passed => if passed && Flow.startsBranch line then .branch else .step)
      (passConditions env leaving line) session := by
  refine (passConditions_moves env layered leaving line).ran.mono (fun passed after ended => ?_) fun _ _ left => left.1
  dsimp only
  split
  · rename_i both
    rw [Bool.and_eq_true] at both
    exact ⟨nofun, ended.1, fun _ => passConditions_turns env both.2 ended.2⟩
  · exact ⟨nofun, ended.1, nofun⟩

end Interpreter

namespace Recorded

open Interpreter

theorem deeper_mirrors {calls : Nat} {recorded : Recorded σ α} {program : Run σ α} (inner : Mirrors recorded program) :
    Mirrors (deeper calls recorded) (Run.deeper calls program) := by
  have redepth (depth : Nat) : Rests (modify ({ · with depth }) : Run σ Unit) := .change fun _ => rfl
  refine Mirrors.read fun session => ?_
  dsimp only
  split
  · exact Mirrors.bind (Mirrors.throw _) fun _ => Mirrors.bind (redepth _).mirrors fun _ =>
      Mirrors.always inner (redepth _).mirrors
  · exact Mirrors.bind (redepth _).mirrors fun _ => Mirrors.always inner (redepth _).mirrors

section Loops

variable (env : Env σ) {runLine : Text → Recorded σ Unit} {runLine' : Text → Run σ Unit}
  (lines : ∀ text, Mirrors (runLine text) (runLine' text))

include lines

theorem replayLines_mirrors (conditions : Nat) (body : List BodyLine) :
    Mirrors (replayLines env runLine conditions body) (Flow.replayLines env runLine' conditions body) := by
  induction body with
  | nil => exact Mirrors.pure _
  | cons line rest ih =>
      have trims : Mirrors (step (Run.modifyFrame (·.trimConditions conditions)))
          (Run.modifyFrame (·.trimConditions conditions) : Run σ Unit) :=
        Mirrors.change fun session => .shifts _ (.drops (List.drop_suffix _ _))
      have numbers : Rests (Run.modifyFrame ({ · with line := line.number }) : Run σ Unit) := .modifyFrame fun _ => rfl
      refine Mirrors.bind numbers.mirrors fun _ =>
        Mirrors.bind (Mirrors.onError (lines line.text) fun error => ?_) fun _ => ih
      exact Mirrors.bind trims fun _ => Mirrors.bind (Report.add_rests env error).mirrors fun _ => Mirrors.throw _

theorem replay_mirrors (depth conditions : Nat) (body : List BodyLine) (passes pass : Nat) :
    Mirrors (replay env runLine depth conditions body passes pass)
      (Flow.replay env runLine' depth conditions body passes pass) := by
  induction passes generalizing pass with
  | zero => exact Mirrors.throw _
  | succ passes ih =>
      have counts : Rests (Run.put "for_index" (Text.ofNat pass) : Run σ Unit) := .change fun _ => rfl
      refine Mirrors.bind counts.mirrors fun _ =>
        Mirrors.bind (replayLines_mirrors env lines conditions body) fun _ => ?_
      refine Mirrors.read fun session => ?_
      split
      · exact Mirrors.pure _
      · refine Mirrors.bind (Flow.advance_rests env depth).mirrors fun answer => ?_
        split
        · exact ih (pass + 1)
        · exact Mirrors.pure _

theorem endLoop_mirrors : Mirrors (endLoop env runLine) (Flow.endLoop env runLine') := by
  refine Mirrors.read fun session => ?_
  dsimp only
  cases session.frame.loops with
  | nil => exact Mirrors.pure _
  | cons loop outer =>
      refine Mirrors.bind (Mirrors.always ?_ (Flow.finishLoop_rests env _ _).mirrors) fun answer => ?_
      · split
        · have resumes : Rests (Run.modifyFrame (·.modifyLoop ({ · with mode := .replaying })) : Run σ Unit) :=
            .modifyFrame fun _ => rfl
          exact Mirrors.bind resumes.mirrors fun _ => deeper_mirrors (replay_mirrors env lines _ _ _ _ _)
        · exact Mirrors.pure _
      · refine Rests.mirrors (.check _ _ ?_)
        split
        · exact .throw _
        · exact .pure _

end Loops

section Lines

variable (env : Env σ) {exec : Text → Recorded σ Unit} {exec' : Text → Run σ Unit}
  (lines : ∀ text, Mirrors (exec text) (exec' text))

include lines

theorem runLine_mirrors (line : Text) : Mirrors (runLine env exec line) (Interpreter.runLine env exec' line) := by
  have starts : Rests (Run.modifyFrame ({ · with statement := line }) : Run σ Unit) := .modifyFrame fun _ => rfl
  refine Mirrors.bind starts.mirrors fun _ => Mirrors.bind (emit_rests env _ _).mirrors fun _ => ?_
  refine Mirrors.bind (Mirrors.onError (lines line) fun error => Rests.mirrors ?_) fun _ => (emit_rests env _ _).mirrors
  exact .read fun session => .bind (emit_rests env _ _) fun _ => .throw _

theorem collect_mirrors (line : Text) : Mirrors (collect env exec line) (Interpreter.collect env exec' line) := by
  refine Mirrors.read fun session => ?_
  dsimp only
  generalize session.frame.blocks.track line = tracked
  obtain ⟨blocks, result⟩ := tracked
  have counts : Rests (Run.modifyFrame ({ · with blocks }) : Run σ Unit) := .modifyFrame fun _ => rfl
  refine Mirrors.bind counts.mirrors fun _ => ?_
  cases result with
  | error error => exact Mirrors.throw _
  | ok ends =>
      cases ends with
      | true => exact endLoop_mirrors env (runLine_mirrors env lines)
      | false =>
          have collects : Rests (Run.modifyFrame (·.modifyLoop fun loop =>
              { loop with lines := loop.lines ++ [⟨line, session.frame.line⟩] }) : Run σ Unit) :=
                .modifyFrame fun _ => rfl
          exact collects.mirrors

theorem runScriptLine_mirrors (text : Text) (number : Nat) :
    Mirrors (runScriptLine env exec text number) (Interpreter.runScriptLine env exec' text number) := by
  have numbers : Rests (Run.modifyFrame ({ · with line := number }) : Run σ Unit) := .modifyFrame fun _ => rfl
  have clears : Mirrors (step (setConditions [])) (setConditions [] : Run σ Unit) :=
    Mirrors.change fun session => .shifts _ (.drops List.nil_suffix)
  refine Mirrors.bind numbers.mirrors fun _ => Mirrors.bind (runLine_mirrors env lines text).attempt fun result => ?_
  cases result with
  | ok value => exact Mirrors.pure _
  | error exit =>
      cases exit with
      | returned =>
          exact Mirrors.bind clears fun _ => Mirrors.bind (Flow.abandonAll_rests env).mirrors fun _ => Mirrors.pure _
      | error error => exact Mirrors.bind (Report.add_rests env error).mirrors fun _ => Mirrors.pure _
      | _ => exact Mirrors.throw _

theorem runFolded_mirrors (text : Text) (number : Nat) :
    Mirrors (runFolded env exec text number) (Interpreter.runFolded env exec' text number) := by
  unfold runFolded Interpreter.runFolded
  cases Lines.deliver text number with
  | nil => exact Mirrors.pure _
  | cons event rest =>
      cases event with
      | line text number => exact runScriptLine_mirrors env lines text number
      | _ => exact Mirrors.pure _

theorem runScript_mirrors (bound : Nat) (reader : Reader) (part : Option Lines.Open) (number : Nat) :
    Mirrors (runScript env exec bound reader part number)
      (Interpreter.runScript env exec' bound reader part number) := by
  induction bound generalizing reader part number with
  | zero => exact Mirrors.throw _
  | succ bound ih =>
      have goesOn (reader : Reader) (text : Text) (number : Nat) : Mirrors
          (do if ← runFolded env exec text number then runScript env exec bound reader none number)
          (do if ← Interpreter.runFolded env exec' text number then
                Interpreter.runScript env exec' bound reader none number) := by
        refine Mirrors.bind (runFolded_mirrors env lines _ _) fun continues => ?_
        split
        · exact ih _ _ _
        · exact Mirrors.pure _
      refine Mirrors.read fun session => Mirrors.bind (Rests.mirrors (.respecting fun _ => Respects.ofFault _)) ?_
      rintro ⟨raw, reader⟩
      cases raw with
      | none =>
          cases part with
          | none => exact Mirrors.pure _
          | some part => exact goesOn _ _ _
      | some raw =>
          have extends' : Mirrors
              (do
                if (Lines.extend part raw).2.1 then
                  runScript env exec bound reader (some (Lines.extend part raw).1) (number + 1)
                else if ← runFolded env exec (Lines.extend part raw).1.text (number + 1) then
                  runScript env exec bound reader none (number + 1))
              (do
                if (Lines.extend part raw).2.1 then
                  Interpreter.runScript env exec' bound reader (some (Lines.extend part raw).1) (number + 1)
                else if ← Interpreter.runFolded env exec' (Lines.extend part raw).1.text (number + 1) then
                  Interpreter.runScript env exec' bound reader none (number + 1)) := by
            split
            · exact ih _ _ _
            · exact goesOn _ _ _
          dsimp only
          split
          · have warns : Rests (Run.report Lines.warningText : Run σ Unit) := .change fun _ => rfl
            exact Mirrors.bind warns.mirrors fun _ => extends'
          · exact extends'

theorem runOpened_mirrors (place : Location) :
    Mirrors (runOpened env exec place) (Interpreter.runOpened env exec' place) := by
  refine Mirrors.bind (runScript_mirrors env lines _ _ _ _) fun _ => Mirrors.read fun session => ?_
  have reports (text : Text) : Rests (Run.report text : Run σ Unit) := .change fun _ => rfl
  exact Mirrors.bind (Rests.mirrors (.forM fun _ => reports _)) fun _ => (Flow.abandonAll_rests env).mirrors

omit env in
theorem runBlock_mirrors (block : Text) : Mirrors (runBlock exec block) (Interpreter.runBlock exec' block) := by
  have stores (f : Session σ → Store) : Rests
      (modify fun session => { session with store := f session } : Run σ Unit) :=
    .change fun _ => rfl
  refine Mirrors.bind (stores fun session => session.store.openPending).mirrors fun _ => ?_
  refine Mirrors.bind (deeper_mirrors (lines block)).attempt fun result => Mirrors.read fun session => ?_
  refine Mirrors.bind (stores fun _ => session.store.closePending.2).mirrors fun _ => ?_
  cases result with
  | ok value => exact Mirrors.pure _
  | error exit => exact Mirrors.throw _

theorem parseFile_mirrors (target : ScriptTarget) :
    Mirrors (parseFile env exec target) (Interpreter.parseFile env exec' target) := by
  refine Mirrors.read fun session => ?_
  refine Mirrors.bind (Rests.mirrors (.respecting fun _ => FileArguments.checkPath_respects _)) fun _ => ?_
  refine Mirrors.read fun session => Mirrors.bind (Rests.mirrors (.respecting fun _ => Respects.ofExcept _ _))
    fun place => ?_
  have runs (scope : Scope) (path : Text) : Mirrors
      (deeper 5 do
        step (enterFrame { path := some path } scope)
        always (runOpened env exec place) (step leaveFrame))
      (Run.deeper 5 do
        enterFrame { path := some path } scope
        Run.always (Interpreter.runOpened env exec' place) leaveFrame) := by
    have enters : Mirrors (step (enterFrame { path := some path } scope))
        (enterFrame { path := some path } scope : Run σ Unit) := Mirrors.change fun session => .enters session.branches
    have leaves : Mirrors (step leaveFrame) (leaveFrame : Run σ Unit) := by
      refine Mirrors.change fun session => ?_
      -- a script that nobody waits for is not left, but goes on
      cases waiting : session.callers with
      | nil =>
          simp only [Session.branches, waiting]
          exact .shifts _ (.refl _)
      | cons caller rest =>
          simp only [Session.branches, waiting, List.head?_cons, Option.getD_some, List.drop_succ_cons, List.drop_zero]
          exact .leaves _ _
    exact deeper_mirrors (Mirrors.bind enters fun _ => Mirrors.always (runOpened_mirrors env lines place) leaves)
  cases target.block with
  | none => exact runs _ _
  | some block =>
      dsimp only
      split
      · exact runs _ _
      · exact Mirrors.bind (runBlock_mirrors lines block) fun scope => runs scope _

omit env in
theorem parseString_mirrors (rest : Text) : Mirrors (parseString exec rest) (Interpreter.parseString exec' rest) := by
  refine Mirrors.bind (Rests.mirrors (.respecting fun _ => Command.require_respects _ _ _)) fun _ => ?_
  refine Mirrors.bind (Rests.mirrors (.respecting fun reference =>
    Respects.readVariable (AtBranches.traceable reference).toEvaluable rest)) fun stored => ?_
  exact deeper_mirrors (lines _)

theorem runStatement_mirrors {line : Text} {session : Session σ}
    (executes : ∀ branch ∈ session.frame.conditions, branch.isExecuting) :
    MirrorsAt (runStatement env exec line) (Interpreter.runStatement env exec' line) session := by
  refine MirrorsAt.note executes ?_
  cases found : opener? line with
  | none =>
      rw [runStatement_single env found exec' fun _ => pure ()]
      exact (runStatement_rests env found _).mirrors session
  | some command =>
      obtain ⟨runs, rfl | rfl⟩ := runStatement_opener env found exec'
      · rw [runs]
        refine MirrorsAt.read (MirrorsAt.bindEnded ?_ fun target after _ => parseFile_mirrors env lines target after)
        exact Rests.mirrors (.respecting fun _ => Respects.ofFailure _) session
      · rw [runs]
        exact parseString_mirrors lines _ session

theorem statement_mirrors (text : Text) :
    Mirrors (statement env exec text) (Interpreter.statement env exec' text) := by
  unfold statement Interpreter.statement
  extract_lets line
  split
  · exact Mirrors.pure _
  refine Mirrors.bind (Rests.mirrors (.respecting fun _ => Respects.ofMalformed _)) fun _ => ?_
  refine fun session => MirrorsAt.read ?_
  dsimp only
  split
  · exact collect_mirrors env lines _ session
  refine MirrorsAt.of_layered fun layered => ?_
  refine MirrorsAt.bindEnded (.stepAs (passConditions_step env layered _ _)) fun passed after ended => ?_
  split
  · exact .pure _
  rename_i goesOn
  -- the line is to be run, so all entries of its stack execute
  have unsettled : passed = false := by simpa using goesOn
  obtain ⟨rfl, judged⟩ := passConditions_runs (unsettled ▸ ended)
  split
  · exact runStatement_mirrors env lines ((layered _ List.mem_cons_self).executing_of_runs judged)
  · exact .pure _

theorem parseLine_mirrors (line : Text) : Mirrors (parseLine env exec line) (parseLineBy env exec' line) := by
  have counts : Rests (modify (·.modifyRoot fun root => { root with line := root.line + 1 }) : Run σ Unit) := by
    refine .change fun session => ?_
    cases callers : session.callers.reverse with
    | nil => simp only [Session.modifyRoot, callers, Session.branches]
    | cons root rest =>
        simp only [Session.modifyRoot, callers, Session.branches]
        rw [show session.callers = (root :: rest).reverse from List.reverse_eq_iff.mp callers]
        simp
  have stops (code : Int) : Rests (modify (·.stop code) : Run σ Unit) := by
    refine .change fun session => ?_
    unfold Session.stop Session.closeFiles Session.closeWrite Session.closePrint
    cases session.printFile <;> cases session.writeFile <;> rfl
  refine Mirrors.read fun session => ?_
  split
  · exact Mirrors.pure _
  refine Mirrors.bind counts.mirrors fun _ => ?_
  refine Mirrors.bind (deeper_mirrors (runLine_mirrors env lines line)).attempt fun result => ?_
  cases result with
  | ok value => exact Mirrors.pure _
  | error exit =>
      cases exit with
      | stopped code => exact Mirrors.bind (stops code).mirrors fun _ => Mirrors.pure _
      | error error => exact Mirrors.bind (Report.add_rests env error).mirrors fun _ => Mirrors.pure _
      | _ => exact Mirrors.throw _

theorem runLogical_mirrors (good : Bool) (events : List Lines.Event) :
    Mirrors (runLogical env exec good events) (runLogicalBy env exec' good events) := by
  induction events generalizing good with
  | nil => exact Mirrors.pure _
  | cons event rest ih =>
      cases event with
      | asked _ => exact ih good
      | warning =>
          have warns : Rests (Run.report Lines.warningText : Run σ Unit) := .change fun _ => rfl
          exact Mirrors.bind warns.mirrors fun _ => ih good
      | line text number =>
          refine Mirrors.bind (parseLine_mirrors env lines text) fun answer => Mirrors.read fun session => ?_
          split
          · exact Mirrors.pure _
          · exact ih _

theorem answers_mirrors (requests : List Request) :
    Mirrors (answers env exec requests) (answersBy env exec' requests) := by
  have serves (request : Request) : Mirrors (serve env exec request) (serveBy env exec' request) := by
    cases request with
    | line text => exact Mirrors.bind (parseLine_mirrors env lines text) fun _ => Mirrors.pure _
    | text text => exact Mirrors.bind (runLogical_mirrors env lines true _) fun _ => Mirrors.pure _
    | file target => exact parseFile_mirrors env lines target
  induction requests with
  | nil => exact Mirrors.pure _
  | cons request rest ih =>
      exact Mirrors.bind (serves request).attempt fun answer => Mirrors.bind ih fun _ => Mirrors.pure _

end Lines

theorem execLine_mirrors (env : Env σ) (depth : Nat) (line : Text) :
    Mirrors (execLine env depth line) (Interpreter.execLine env depth line) := by
  induction depth generalizing line with
  | zero => exact Mirrors.throw _
  | succ depth ih =>
      refine Mirrors.bind (Rests.mirrors (.respecting fun _ => Respects.ofMalformed _)) fun texts => ?_
      exact Mirrors.forM (statement_mirrors env ih)

end Recorded

end CommandScript
