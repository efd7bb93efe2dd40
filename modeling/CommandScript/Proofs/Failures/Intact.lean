import CommandScript.Proofs.Scoping.Following

/-!
Statements that fail. A statement that stores something, defines an alias, opens a file or opens a loop does
so last, after all that can fail, so an error leaves the session as it was. Two kinds of statements act
before their last check: a file that cannot be opened has closed the one before it, and the list of a loop is
stored before it is read back.
-/

namespace CommandScript

variable {σ α β : Type}

open Run

/-- Variables, aliases, chains, loops and callers are the same, and so are the open files, but for what the
functions that write have added to the write file. -/
structure Intact (before after : Session σ) : Prop where
  store : after.store = before.store
  frame : { after.frame with blocks := before.frame.blocks } = before.frame
  callers : after.callers = before.callers
  printFile : after.printFile = before.printFile
  written : ∃ chunks : List (List UInt8),
    after.writeFile = (chunks.foldl Session.writeBytes before).writeFile ∧
    after.files = (chunks.foldl Session.writeBytes before).files

theorem Session.writeBytes_congr {one other : Session σ} (sameFile : one.writeFile = other.writeFile)
    (sameTree : one.files = other.files) (bytes : List UInt8) :
    (one.writeBytes bytes).writeFile = (other.writeBytes bytes).writeFile ∧
      (one.writeBytes bytes).files = (other.writeBytes bytes).files := by
  cases opened : other.writeFile with
  | none => simp only [Session.writeBytes, sameFile, opened, sameTree, and_self]
  | some handle => simp only [Session.writeBytes, sameFile, opened, sameTree, and_self]

namespace Intact

variable {base session after : Session σ}

theorem refl (session : Session σ) : Intact session session := ⟨rfl, rfl, rfl, rfl, [], rfl, rfl⟩

theorem writeBytes (intact : Intact base session) (bytes : List UInt8) : Intact base (session.writeBytes bytes) := by
  obtain ⟨store, frame, callers, printFile, chunks, sameFile, sameTree⟩ := intact
  have next := Session.writeBytes_congr sameFile sameTree bytes
  have others : (session.writeBytes bytes).store = session.store ∧ (session.writeBytes bytes).frame = session.frame ∧
      (session.writeBytes bytes).callers = session.callers ∧
      (session.writeBytes bytes).printFile = session.printFile := by
    unfold Session.writeBytes
    split <;> exact ⟨rfl, rfl, rfl, rfl⟩
  refine ⟨others.1.trans store, ?_, others.2.2.1.trans callers, others.2.2.2.trans printFile, chunks ++ [bytes], ?_⟩
  · rw [others.2.1]
    exact frame
  · rw [List.foldl_append]
    exact next

def Marked (base left right : Session σ) : Prop := left = right ∧ Intact base left

theorem evaluable (base : Session σ) : Evaluable (Marked base) where
  store := by rintro _ _ ⟨rfl, _⟩; rfl
  buffers := by rintro _ _ ⟨rfl, _⟩; rfl
  depth := by rintro _ _ ⟨rfl, _⟩; rfl
  writeFile := by rintro _ _ ⟨rfl, _⟩; rfl
  files := by rintro _ _ ⟨rfl, _⟩; rfl
  host := by rintro _ _ ⟨rfl, _⟩; rfl
  withDepth := by
    rintro _ _ _ ⟨rfl, ⟨store, frame, callers, printFile, written⟩⟩
    exact ⟨rfl, store, frame, callers, printFile, written⟩
  withHost := by
    rintro _ _ _ ⟨rfl, ⟨store, frame, callers, printFile, written⟩⟩
    exact ⟨rfl, store, frame, callers, printFile, written⟩
  writeBytes := by
    rintro _ _ bytes ⟨rfl, intact⟩
    exact ⟨rfl, intact.writeBytes bytes⟩

theorem evaluates {program : Run σ α} (respects : ∀ base, Respects (Marked base) program)
    (intact : Intact base session) :
    Meets (fun _ => Intact base) (fun _ => Intact base) program session := by
  have linked := @respects base session session ⟨rfl, intact⟩
  unfold Meets
  generalize program session = result at linked ⊢
  cases linked with
  | ok marked => exact .ok marked.2
  | error marked => exact .error marked.2

end Intact

def Spares (base : Session σ) (exit : Exit) (after : Session σ) : Prop :=
  ∀ error, exit = .error error → Intact base after

abbrev FailsClean (base : Session σ) (program : Run σ α) (session : Session σ) : Prop :=
  Meets (fun _ _ => True) (Spares base) program session

namespace FailsClean

variable {base session : Session σ} {Ends : β → Session σ → Prop}

theorem after_evaluating {first : Run σ α} {next : α → Run σ β} (respects : ∀ base, Respects (Intact.Marked base) first)
    (intact : Intact base session)
    (goesOn : ∀ value after, Intact base after → Meets Ends (Spares base) (next value) after) :
    Meets Ends (Spares base) (first >>= next) session := by
  have evaluated := (Intact.evaluates respects intact).mono (fun _ _ kept => kept)
    (fun _ _ kept _ _ => kept : ∀ exit after, Intact base after → Spares base exit after)
  exact Meets.bind evaluated goesOn

theorem change {f : Session σ → Session σ} : FailsClean base (modify f : Run σ Unit) session := Meets.change trivial

theorem fail {cause : Cause} (intact : Intact base session) : FailsClean base (Run.fail cause : Run σ α) session :=
  Meets.throw fun _ _ => intact

theorem guard (refused : Prop) [Decidable refused] {cause : Cause} {next : Run σ β} (intact : Intact base session)
    (goesOn : Meets Ends (Spares base) next session) :
    Meets Ends (Spares base) (if refused then (do let _ ← (Run.fail cause : Run σ PUnit); next) else next) session :=
  Meets.check (fun _ _ => intact) goesOn

theorem writeLine (text : Text) : FailsClean base (Run.writeLine text : Run σ Unit) session := by
  refine Meets.read ?_
  cases session.write (text ++ "\n") with
  | ok written => exact .ok trivial
  | error fault => exact .error nofun

end FailsClean

namespace Command

variable {session : Session σ} (env : Env σ) (rest : Text)

theorem runSet_failsClean : FailsClean session (runSet env rest) session := by
  refine FailsClean.after_evaluating (fun _ => storedName_respects _ _) (.refl _) fun given _ named => ?_
  refine FailsClean.after_evaluating (fun base => Words.concatenate_respects (Intact.evaluable base) env _ _) named
    fun text _ _ => ?_
  exact FailsClean.change

theorem runSetLogical_failsClean : FailsClean session (runSetLogical env rest) session := by
  refine FailsClean.after_evaluating (fun _ => storedName_respects _ _) (.refl _) fun given _ named => ?_
  refine FailsClean.after_evaluating (fun base => Respects.onError
    (Expr.condition_respects (Intact.evaluable base) env _) fun _ => fail_respects _) named fun flag _ _ => ?_
  exact FailsClean.change

theorem runSprint_failsClean (style : PrintStyle) : FailsClean session (runSprint env style rest) session := by
  refine FailsClean.after_evaluating (fun _ => require_respects _ _ _) (.refl _) fun _ _ required => ?_
  refine FailsClean.guard _ required ?_
  refine FailsClean.after_evaluating (fun base => PrintStyle.render_respects (Intact.evaluable base) env style _)
    required
    fun text _ _ => ?_
  exact FailsClean.change

theorem runUnset_failsClean : FailsClean session (runUnset rest) session := by
  refine FailsClean.after_evaluating (fun _ => require_respects _ _ _) (.refl _) fun _ _ _ => ?_
  exact Meets.forM trivial fun _ _ _ => FailsClean.change

theorem runPublish_failsClean : FailsClean session (runPublish rest) session := by
  refine FailsClean.after_evaluating (fun _ => require_respects _ _ _) (.refl _) fun _ _ required => ?_
  refine Meets.read (FailsClean.after_evaluating (fun _ => Respects.ofStore _) required fun _ _ _ => ?_)
  exact FailsClean.change

theorem runAlias_failsClean : FailsClean session (runAlias rest) session := by
  refine Meets.read ?_
  dsimp only
  split
  · -- the list of the aliases is written; a text that cannot be written is no script error
    have lists (entries : List Alias) (reached : Session σ) : FailsClean session
        (entries.forM fun entry => Run.writeLine (entry.name ++ "=" ++ entry.value)) reached :=
      Meets.forM trivial fun _ _ _ => FailsClean.writeLine _
    split
    · exact Meets.bind (FailsClean.writeLine _) fun _ _ _ => lists _ _
    · exact lists _ _
  · refine FailsClean.after_evaluating (fun _ => Respects.ofExcept _ _) (.refl _) fun _ _ _ => ?_
    exact FailsClean.change

theorem assign_failsClean {line name value : Text} (split : Names.splitAssignment? line = some (name, value))
    (plain : name.contains '.' = false) :
    Meets (fun assigned _ => assigned = true) (Spares session) (assign env line) session := by
  simp only [assign, split, plain, Bool.false_eq_true, ↓reduceIte]
  have stores (reached : Session σ) (intact : Intact session reached) :
      Meets (fun assigned _ => assigned = true) (Spares session) (do
        let shown ← Run.ofFault (← Expr.valueOf env (Text.trim value)).render
        if !Number.isNumber shown then Command.fail (.name "assignment" (.notANumber shown))
        Run.put name shown
        return true : Run σ Bool) reached := by
    refine FailsClean.after_evaluating (fun base => Expr.valueOf_respects (Intact.evaluable base) env _) intact
      fun found _ valued => ?_
    refine FailsClean.after_evaluating (fun _ => Respects.ofFault _) valued fun shown _ rendered => ?_
    exact FailsClean.guard _ rendered (Meets.change_bind (Meets.pure rfl))
  split
  · exact FailsClean.after_evaluating (fun _ => fail_respects _) (.refl _) fun _ _ kept =>
      FailsClean.guard _ kept (FailsClean.guard _ kept (stores _ kept))
  · exact FailsClean.after_evaluating (fun _ => Respects.pure _) (.refl _) fun _ _ kept =>
      FailsClean.guard _ kept (FailsClean.guard _ kept (stores _ kept))

end Command

/-- What a failed statement leaves behind, if it does not leave the session intact. -/
inductive Residue (line : Text) (session : Session σ) : Session σ → Prop
  /-- The print file was closed before another one could not be opened. -/
  | printClosed : Interpreter.commandOf? line = some .printOpen → session.printFile.isSome →
      Residue line session session.closePrint
  | writeClosed : Interpreter.commandOf? line = some .writeOpen → session.writeFile.isSome →
      Residue line session session.closeWrite
  /-- The list of a loop was stored under a name that it cannot be read from. -/
  | listStored (name list : Text) : LoopHeader.parse line = .ok (.list name (some list)) →
      (∀ value, (session.store.set name list).get? name ≠ .ok (some value)) →
      Residue line session
        (Session.put { session with frame := { session.frame with blocks := ⟨1, 0⟩ } } name list)

def Bears (line : Text) (session : Session σ) (exit : Exit) (after : Session σ) : Prop :=
  ∀ error, exit = .error error → Intact session after ∨ Residue line session after

theorem FailsClean.bears {program : Run σ α} {base session : Session σ} (line : Text)
    (clean : FailsClean base program session) : Meets (fun _ _ => True) (Bears line base) program session :=
  clean.mono (fun _ _ ended => ended) fun _ _ spares error same => .inl (spares error same)

theorem Run.Meets.ofExcept_bind {ε : Type} {wrap : ε → Exit} {result : Except ε α} {next : α → Run σ β}
    {session : Session σ} {Ends : β → Session σ → Prop} {Fails : Exit → Session σ → Prop}
    (left : ∀ error, result = .error error → Fails (wrap error) session)
    (goesOn : ∀ value, result = .ok value → Meets Ends Fails (next value) session) :
    Meets Ends Fails (Run.ofExcept wrap result >>= next) session := by
  cases result with
  | error error => exact .error (left error rfl)
  | ok value => exact goesOn value rfl

def Run.failedStore? (program : Run σ α) (session : Session σ) : Option Store :=
  match program session with
  | .error (.error _) after => some after.store
  | _ => none

theorem Run.failedStore?_eq_some {program : Run σ α} {session : Session σ} {store : Store}
    (failed : program.failedStore? session = some store) :
    ∃ error after, program session = .error (.error error) after ∧ after.store = store := by
  unfold failedStore? at failed
  split at failed
  · cases failed
    exact ⟨_, _, ‹_›, rfl⟩
  · cases failed

namespace FileArguments

variable {session : Session σ}

theorem target_stays (env : Env σ) (command rest : Text) :
    Meets (fun _ after => after = session) (fun _ after => after = session) (target env command rest) session := by
  refine Meets.ofExcept_bind (fun _ _ => rfl) fun given _ => ?_
  dsimp only
  split
  · exact Meets.pure rfl
  · unfold Run.readVariable
    rw [bind_assoc]
    refine Meets.read (Meets.ofExcept_bind (fun _ _ => rfl) fun _ _ => ?_)
    exact Meets.pure rfl

theorem openFile_stays (command path : Text) (append : Bool) :
    Meets (fun _ _ => True) (fun _ after => after = session) (openFile command path append) session := by
  have checks : Meets (fun _ after => after = session) (fun _ after => after = session) (checkPath path) session :=
    Meets.check rfl (Meets.check rfl (Meets.pure rfl))
  refine Meets.bind checks ?_
  rintro _ _ rfl
  refine Meets.read ?_
  split
  · exact Meets.change_bind (Meets.pure trivial)
  · exact Meets.throw rfl

end FileArguments

namespace Command

variable {session : Session σ} (env : Env σ)

theorem runPrintOpen_bears {line : Text} (known : Interpreter.commandOf? line = some .printOpen) (rest : Text) :
    Meets (fun _ _ => True) (Bears line session) (runPrintOpen env rest) session := by
  refine Meets.bind ((FileArguments.target_stays env _ _).mono (fun _ _ same => same) ?_) fun given after same => ?_
  · rintro _ _ rfl _ _
    exact .inl (.refl _)
  subst same
  refine Meets.change_bind (Meets.bind ((FileArguments.openFile_stays _ _ _).mono (fun _ _ ended => ended) ?_)
    fun _ _ _ => Meets.change trivial)
  rintro _ _ rfl _ _
  cases opened : after.printFile with
  | none =>
      left
      simp only [Session.closePrint, opened]
      exact .refl after
  | some handle => exact .inr (.printClosed known (by simp [opened]))

theorem runWriteOpen_bears {line : Text} (known : Interpreter.commandOf? line = some .writeOpen) (rest : Text) :
    Meets (fun _ _ => True) (Bears line session) (runWriteOpen env rest) session := by
  refine Meets.bind ((FileArguments.target_stays env _ _).mono (fun _ _ same => same) ?_) fun given after same => ?_
  · rintro _ _ rfl _ _
    exact .inl (.refl _)
  subst same
  refine Meets.change_bind (Meets.bind ((FileArguments.openFile_stays _ _ _).mono (fun _ _ ended => ended) ?_)
    fun _ _ _ => Meets.change trivial)
  rintro _ _ rfl _ _
  cases opened : after.writeFile with
  | none =>
      left
      simp only [Session.closeWrite, opened]
      exact .refl after
  | some handle => exact .inr (.writeClosed known (by simp [opened]))

def stores : Command → Bool
  | set | setLogical | sprint | sprintf | publish | unset | addAlias | printOpen | writeOpen => true
  | _ => false

end Command

namespace Flow

variable {session : Session σ}

theorem bindFields_failsClean {base : Session σ} (intact : Intact base session) (name : Text) :
    FailsClean base (bindFields name) session := by
  refine FailsClean.after_evaluating (fun _ => Respects.readVariable (Intact.evaluable _) name) intact
    fun stored _ kept => ?_
  cases stored with
  | none => exact FailsClean.fail kept
  | some saved =>
      dsimp only
      split
      · exact Meets.change_bind (Meets.pure trivial)
      · exact Meets.pure trivial

theorem bindFirst_bears (env : Env σ) {line : Text} {header : LoopHeader} (parsed : LoopHeader.parse line = .ok header)
    (inside : ∀ name qualifier type, header ≠ .external name qualifier type) :
    Meets (fun _ _ => True) (Bears line session) (bindFirst env header)
      { session with frame := { session.frame with blocks := ⟨1, 0⟩ } } := by
  have counted : Intact session { session with frame := { session.frame with blocks := ⟨1, 0⟩ } } :=
    ⟨rfl, rfl, rfl, rfl, [], rfl, rfl⟩
  cases header with
  | external name qualifier type => exact absurd rfl (inside name qualifier type)
  | range name first last =>
      refine FailsClean.bears line ?_
      refine FailsClean.after_evaluating (fun base => rangeBound_respects (Intact.evaluable base) env _ first) counted
        fun start _ started => ?_
      refine FailsClean.after_evaluating (fun base => rangeBound_respects (Intact.evaluable base) env _ last) started
        fun stop _ _ => ?_
      dsimp only
      split
      · exact Meets.change_bind (Meets.pure trivial)
      · exact Meets.pure trivial
  | list name literal =>
      cases literal with
      | none =>
          rw [bindFirst_stored]
          exact (bindFields_failsClean counted name).bears line
      | some list =>
          rw [bindFirst_literal]
          refine Meets.change_bind ?_
          -- the list is stored before it is read again, and that may fail
          have unread (missing : ∀ value, (session.store.set name list).get? name ≠ .ok (some value)) :
              Residue line session
                (Session.put { session with frame := { session.frame with blocks := ⟨1, 0⟩ } } name list) :=
            .listStored name list parsed missing
          unfold bindFields Run.readVariable
          rw [bind_assoc]
          refine Meets.read (Meets.ofExcept_bind (fun failure failed _ _ => .inr (unread ?_)) fun stored found => ?_)
          · intro value same
            cases failed.symm.trans same
          cases stored with
          | none =>
              refine Meets.throw fun _ _ => .inr (unread fun value same => ?_)
              cases found.symm.trans same
          | some saved =>
              dsimp only
              split
              · exact Meets.change_bind (Meets.pure trivial)
              · exact Meets.pure trivial

end Flow

namespace Interpreter

/-- The line assigns a number, stores or publishes a text, drops a variable, defines an alias, opens a file or opens a
loop over a range or a list. -/
def stores (line : Text) : Bool :=
  match Flow.role? line with
  | some .header =>
    match LoopHeader.parse line with
    | .ok (.external _ _ _) => false
    | _ => true
  | some .action =>
    line.head? ≠ some (.char '!') &&
      match Command.of? (Text.cutOrAll ' ' line).1 with
      | some command => command.stores
      | none => !isWriteCall line && (Names.splitAssignment? line).any fun (name, _) => !name.contains '.'
  | _ => false

variable {session : Session σ} (env : Env σ) (exec : Text → Run σ Unit) {line : Text}

theorem startLoop_bears (inside : ∀ name qualifier type, LoopHeader.parse line ≠ .ok (.external name qualifier type)) :
    Meets (fun _ _ => True) (Bears line session) (startLoop env line) session := by
  refine Meets.ofExcept_bind (fun _ _ _ _ => .inl (.refl _)) fun header parsed => Meets.change_bind ?_
  have binds := @Flow.bindFirst_bears σ session env line header parsed fun name qualifier type same =>
    inside name qualifier type (same ▸ parsed)
  have opens : Meets (fun _ _ => True) (Bears line session) (Flow.openLoop env header)
      { session with frame := { session.frame with blocks := ⟨1, 0⟩ } } :=
    Meets.bind binds fun loop _ _ => Meets.read (Meets.change_bind (Meets.pure trivial))
  exact Meets.bind opens fun _ _ _ => Meets.change trivial

theorem runCommand_bears {command : Command} (known : commandOf? line = some command) (kind : command.stores)
    (rest : Text) : Meets (fun _ _ => True) (Bears line session) (runCommand env exec command rest) session := by
  cases command with
  | set => exact (Command.runSet_failsClean env rest).bears line
  | setLogical => exact (Command.runSetLogical_failsClean env rest).bears line
  | sprint => exact (Command.runSprint_failsClean env rest .sprint).bears line
  | sprintf => exact (Command.runSprint_failsClean env rest .sprintf).bears line
  | publish => exact (Command.runPublish_failsClean rest).bears line
  | unset => exact (Command.runUnset_failsClean rest).bears line
  | addAlias => exact (Command.runAlias_failsClean rest).bears line
  | printOpen => exact Command.runPrintOpen_bears env known rest
  | writeOpen => exact Command.runWriteOpen_bears env known rest
  | _ => cases kind

theorem runStatement_bears (kind : stores line) :
    Meets (fun _ _ => True) (Bears line session) (runStatement env exec line) session := by
  unfold stores at kind
  unfold runStatement
  split at kind
  · rename_i known
    obtain ⟨_, _, opens⟩ := Flow.describes_of_role known
    rw [if_pos opens]
    refine startLoop_bears env fun name qualifier type parsed => ?_
    rw [parsed] at kind
    cases kind
  · rename_i known
    obtain ⟨_, _, notForeach, notEndfor⟩ := Flow.describes_of_role known
    simp only [Bool.and_eq_true, decide_eq_true_eq] at kind
    obtain ⟨notShell, kind⟩ := kind
    simp only [notForeach, notEndfor, notShell, Bool.false_eq_true, ↓reduceIte]
    cases found : Command.of? (Text.cutOrAll ' ' line).1 with
    | some command =>
        rw [found] at kind
        have known : commandOf? line = some command := by rw [commandOf?, if_neg notShell, found]
        exact runCommand_bears env exec known kind _
    | none =>
        rw [found] at kind
        simp only [Bool.and_eq_true, Bool.not_eq_true'] at kind
        obtain ⟨notWrite, assigns⟩ := kind
        simp only [notWrite, Bool.false_eq_true, ↓reduceIte]
        cases split : Names.splitAssignment? line with
        | none =>
            rw [split] at assigns
            cases assigns
        | some pair =>
            rw [split] at assigns
            have assigned := @Command.assign_failsClean σ session env line _ _ split (by simpa using assigns)
            refine Meets.bind (assigned.mono (fun _ _ done => done)
              fun _ _ spares error same => .inl (spares error same)) ?_
            rintro _ _ rfl
            exact Meets.pure trivial
  · cases kind

/-- Lines that store something are no part of a chain: they are run or passed over, and the stack stays. -/
theorem passConditions_stores (kind : stores line) (leaving : Bool) :
    Meets (fun _ after => after = session) (fun _ _ => False) (passConditions env leaving line) session := by
  obtain ⟨role, known, outside⟩ : ∃ role, Flow.role? line = some role ∧ role.isOutside := by
    unfold stores at kind
    split at kind
    · exact ⟨_, ‹_›, rfl⟩
    · exact ⟨_, ‹_›, rfl⟩
    · cases kind
  refine Meets.read ?_
  dsimp only
  rw [Flow.judge_outside known outside]
  split
  · rename_i judged
    exact Meets.pure rfl
  · rename_i judged
    split at judged
    · cases judged
      exact Meets.change_bind (Meets.pure rfl)
    · cases judged
  · rename_i judged
    split at judged <;> cases judged
  · rename_i judged
    split at judged <;> cases judged

/-- A statement that assigns, sets, publishes, drops, defines an alias, opens a file or opens a loop over a
range or a list, and fails, leaves the session intact; but a file that was open may have been closed, and the
list of a loop may have been stored. -/
theorem statement_failure {text : Text} {after : Session σ} {error : ScriptError}
    (awake : session.frame.loops.head?.any Loop.isCollecting = false)
    (kind : stores (rewrite session.frame.aliasTables (Text.trim (Text.stripComment text))))
    (failed : statement env exec text session = .error (.error error) after) :
    Intact session after ∨
      Residue (rewrite session.frame.aliasTables (Text.trim (Text.stripComment text))) session after := by
  have meets : Meets (fun _ _ => True)
      (Bears (rewrite session.frame.aliasTables (Text.trim (Text.stripComment text))) session)
      (statement env exec text) session := by
    unfold statement
    extract_lets line
    split
    · exact Meets.pure trivial
    refine Meets.ofExcept_bind (fun _ _ _ _ => .inl (.refl _)) fun _ _ => Meets.read ?_
    simp only [awake, Bool.false_eq_true, ↓reduceIte]
    refine Meets.bind ((passConditions_stores env kind _).mono (fun _ _ same => same) fun _ _ => False.elim) ?_
    rintro passed _ rfl
    split
    · exact Meets.pure trivial
    split
    · exact runStatement_bears env exec kind
    · exact Meets.pure trivial
  unfold Meets at meets
  rw [failed] at meets
  cases meets with
  | error bears => exact bears error rfl

/-- A name in brackets is stored as it is, but read as a place in a list: the loop fails, and its list stays. -/
theorem bracketedLoop_failure : ∃ error after,
    statement {} (fun _ => pure ()) "foreach('a,b',x[1])" (Session.start {} ()) = .error (.error error) after ∧
      ¬Intact (Session.start {} ()) after ∧ Residue "foreach('a,b',x[1])" (Session.start {} ()) after := by
  have fails : ∃ store, (statement {} (fun _ => pure ()) "foreach('a,b',x[1])").failedStore? (Session.start {} ()) =
      some store ∧ store ≠ (Session.start {} ()).store :=
    ⟨(Session.start {} ()).store.set "x[1]" "a,b", by decide +kernel, by decide +kernel⟩
  obtain ⟨store, run, other⟩ := fails
  obtain ⟨error, after, failed, rfl⟩ := failedStore?_eq_some run
  have changed : ¬Intact (Session.start {} ()) after := fun intact => other intact.store
  have unaliased : rewrite (Session.start {} ()).frame.aliasTables
      (Text.trim (Text.stripComment "foreach('a,b',x[1])")) = ("foreach('a,b',x[1])" : Text) := by decide +kernel
  have left := (statement_failure {} _ rfl (by decide +kernel) failed).resolve_left changed
  exact ⟨error, after, failed, changed, unaliased ▸ left⟩

end Interpreter

end CommandScript
