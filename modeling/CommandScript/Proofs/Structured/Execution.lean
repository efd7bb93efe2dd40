import CommandScript.Proofs.Structured.Replaying

/-! The lines of a script, run one after another, do what the script does as a tree. -/

namespace CommandScript

variable {σ : Type}

namespace Interpreter

theorem runStatement_plain (env : Env σ) (exec exec' : Text → Run σ Unit) {line : Text} (plain : isPlain line) :
    runStatement env exec line = runStatement env exec' line := by
  simp only [isPlain, Bool.and_eq_true, Bool.not_eq_true', Bool.or_eq_true, decide_eq_true_eq] at plain
  obtain ⟨⟨notForeach, notEndfor⟩, kind⟩ := plain
  unfold runStatement
  simp only [notForeach, notEndfor, Bool.false_eq_true, ↓reduceIte]
  by_cases shell : line.head? = some (.char '!')
  · rw [if_pos shell, if_pos shell]
  · rw [if_neg shell, if_neg shell]
    have known := kind.resolve_left shell
    cases found : Command.of? (Text.cutOrAll ' ' line).1 with
    | none => rfl
    | some command =>
        rw [found] at known
        cases command with
        | addAlias | removeAlias | parse | parseString | leaveFile | quit | relativePaths | leaveLoop =>
            simp [Command.isPlain] at known
        | print | printf | sprint | sprintf | printOpen | printClose | writeOpen | writeClose | set | setLogical
          | unset | publish | system | wait => rfl

theorem runStatement_command (env : Env σ) (exec : Text → Run σ Unit) {line : Text} {command : Command}
    (role : Flow.role? line = some .action) (known : commandOf? line = some command) :
    ∃ rest, runStatement env exec line = runCommand env exec command rest := by
  obtain ⟨_, _, notForeach, notEndfor⟩ := Flow.describes_of_role role
  unfold commandOf? at known
  split at known
  · cases known
  · rename_i notShell
    refine ⟨Text.trim (Text.cutOrAll ' ' line).2, ?_⟩
    unfold runStatement
    simp only [notForeach, notEndfor, notShell, known, Bool.false_eq_true, ↓reduceIte]

end Interpreter

/-- Lines run at the control: the current branch is taken, and the innermost loop is being replayed. -/
structure Control.Live (control : Control) (inLoop : Bool) : Prop where
  unaliased : control.Unaliased
  running : control.conditions.head?.any Branch.isSkipping = false
  replaying : ∀ loop ∈ control.loops.head?, loop.mode = .replaying
  inside : inLoop = true → control.loops ≠ []

namespace Control.Live

variable {control after : Control} {inLoop : Bool}

theorem notLeaving (live : control.Live inLoop) : control.leaving = false := by
  unfold Control.leaving
  cases top : control.loops.head? with
  | none => rfl
  | some loop => simp [live.replaying loop top]

theorem reading (live : control.Live inLoop) : control.Reading where
  unaliased := live.unaliased
  open' := by
    unfold Control.collecting
    cases top : control.loops.head? with
    | none => rfl
    | some loop => simp [Loop.isCollecting, live.replaying loop top]

theorem withBranch (live : control.Live inLoop) {branch : Branch} (runs : branch.isSkipping = false) :
    Control.Live { control with conditions := branch :: control.conditions } inLoop :=
  ⟨live.unaliased, runs, live.replaying, live.inside⟩

theorem readingLeft (live : control.Live inLoop) {left : Bool} (reached : control.Reaches left after) :
    after.Reading := by
  cases left with
  | false =>
      rw [reached.eq]
      exact ⟨live.unaliased, live.reading.open'⟩
  | true =>
      have known := reached.eq
      simp only [↓reduceIte] at known
      rw [known]
      cases loops : control.loops with
      | nil => exact ⟨⟨live.unaliased.1, nofun⟩, rfl⟩
      | cons loop outer =>
          have inner := live.unaliased.2
          rw [loops] at inner
          refine ⟨⟨live.unaliased.1, fun other member => ?_⟩, rfl⟩
          simp only [List.modifyHead_cons, List.mem_cons] at member
          rcases member with rfl | member
          · exact inner loop (by simp)
          · exact inner other (by simp [member])

theorem reached (live : control.Live inLoop) (reached : control.Reaches false after) : after.Live inLoop := by
  rw [reached.eq]
  exact ⟨live.unaliased, live.running, live.replaying, live.inside⟩

end Control.Live

namespace Structured

variable {env : Env σ} {control : Control} {inLoop : Bool} {depth : Nat}

theorem statement_live (live : control.Live inLoop) (line : ScriptLine) {role : Flow.Role}
    (known : Flow.role? line.text = some role) (outside : role.isOutside) (exec : Text → Run σ Unit)
    (session : Session σ) :
    Interpreter.statement env exec line.text (session.placed control) =
      Interpreter.runStatement env exec line.text (session.placed control) := by
  have judged : Flow.judge control.leaving control.conditions line.text = .runs := by
    rw [Flow.judge_outside known outside, live.running]
    rfl
  rw [statement_runs live.reading line judged session, live.notLeaving]
  rfl

theorem plain_simulates (quiet : Quiet env) (live : control.Live inLoop) (line : PlainLine) :
    Simulates control (flatLine env (depth + 1) line.toBodyLine) (visit env line.toBodyLine (runPlain env line.text))
      (fun _ _ after => after = control) control.Breaks := by
  refine visit_simulates quiet fun session _ => ?_
  rw [execLine_single, statement_live live line.toScriptLine line.role rfl,
    Interpreter.runStatement_plain env _ (fun _ => throw .exhausted) line.plain]
  have runs := Simulates.same (Interpreter.runStatement_respects (Session.placed_traceable control).toCommandable env
    (fun _ => throw .exhausted) line.plain) session
  exact runs.weaken (fun _ _ _ ended => ended.2) fun _ same => same ▸ .rfl control

theorem leave_passes (quiet : Quiet env) (live : control.Live true) (line : CommandLine .leaveLoop) :
    Simulates control (flatLine env (depth + 1) line.toBodyLine) (visit env line.toBodyLine (pure ()))
      (fun _ _ after => after = { control with loops := control.loops.modifyHead ({ · with mode := .leaving }) })
      (fun _ => False) := by
  refine line_passes quiet line.toScriptLine fun session _ => ?_
  obtain ⟨rest, runs⟩ := Interpreter.runStatement_command env (Interpreter.execLine env depth) line.role line.command
  rw [statement_live live line.toScriptLine line.role rfl, runs]
  have inside : control.loops.isEmpty = false := by simpa using live.inside rfl
  change (if control.loops.isEmpty then _ else Run.modifyFrame (·.modifyLoop ({ · with mode := .leaving }))
    : Run σ Unit) (session.placed control) = _
  rw [inside]
  rfl

theorem back_simulates (quiet : Quiet env) (live : control.Live inLoop) (line : CommandLine .leaveFile) :
    Simulates control (flatLine env (depth + 1) line.toBodyLine) (visit env line.toBodyLine Command.runLeaveFile)
      (fun _ _ after => after = control) control.Breaks := by
  refine visit_simulates quiet fun session _ => ?_
  obtain ⟨rest, runs⟩ := Interpreter.runStatement_command env (Interpreter.execLine env depth) line.role line.command
  rw [execLine_single, statement_live live line.toScriptLine line.role rfl, runs]
  have returns : Run.Respects (fun left right => left = right.placed control) (Command.runLeaveFile : Run σ Unit) := by
    refine Run.Respects.read (fun left right related => by rw [related]; rfl) fun session => ?_
    split
    · exact Run.Respects.throw _
    · exact Run.Respects.fail _
  exact (Simulates.same returns session).weaken (fun _ _ _ ended => ended.2) fun _ same => same ▸ .rfl control

theorem caught_raised {α : Type} (program : Run σ α) :
    (do Run.ofExcept .error (← Run.caught program)) = program := by
  funext session
  change EStateM.bind (EStateM.bind (Run.attempt program) _) _ session = _
  unfold EStateM.bind Run.attempt
  cases program session with
  | ok value after => rfl
  | error exit after => cases exit <;> rfl

theorem statement_asks (reading : control.Reading) (line : ScriptLine) {word : ConditionWord} {text : Text}
    (judged : Flow.judge control.leaving control.conditions line.text = .asks word text) (exec : Text → Run σ Unit)
    (session : Session σ) :
    Agree
      (fun _ taken after => after = { control with conditions := Flow.enter word taken control.conditions })
      (fun after => after = control ∨ after = { control with conditions := Flow.abandon word control.conditions })
      (Interpreter.statement env exec line.text (session.placed control))
      (Interpreter.decideCondition env word text session) := by
  let decision := Interpreter.decideCondition env word text
  have settles : Simulates control
      (do
        let decided ← Run.caught decision
        Interpreter.setConditions (Flow.settle word decided control.conditions)
        Run.ofExcept .error (decided.map fun _ => true))
      (do Run.ofExcept .error (← Run.caught decision))
      (fun done taken after =>
        done = true ∧ after = { control with conditions := Flow.enter word taken control.conditions })
      (fun after => after = control ∨ after = { control with conditions := Flow.abandon word control.conditions }) := by
    have decides := Simulates.same (Run.Respects.caught (Interpreter.decideCondition_respects
      (Session.placed_traceable control).toEvaluable env word text))
    refine Simulates.bind (decides.weaken (fun _ _ _ ended => ended) fun _ same => .inl same)
      fun decided other after reached => ?_
    obtain ⟨rfl, rfl⟩ := reached
    refine Simulates.silent { after with conditions := Flow.settle word decided after.conditions } (fun _ => rfl) ?_
    cases decided with
    | ok taken => exact Simulates.pure ⟨rfl, rfl⟩
    | error error =>
        refine Simulates.throw ?_
        by_cases malformed : error.isMalformed
        · exact .inl (by simp [Flow.settle, malformed])
        · exact .inr (by simp [Flow.settle, malformed])
  -- what is caught and raised again is the decision itself
  rw [caught_raised] at settles
  have passes : Agree
      (fun done taken after =>
        done = true ∧ after = { control with conditions := Flow.enter word taken control.conditions })
      (fun after => after = control ∨ after = { control with conditions := Flow.abandon word control.conditions })
      (Interpreter.passConditions env control.leaving line.text (session.placed control)) (decision session) := by
    rw [passConditions_eq, judged]
    exact settles session
  rw [statement_judged line exec reading.unaliased reading.open']
  have ends : Agree
      (fun _ taken after => after = { control with conditions := Flow.enter word taken control.conditions })
      (fun after => after = control ∨ after = { control with conditions := Flow.abandon word control.conditions })
      ((do
        if ← Interpreter.passConditions env control.leaving line.text then return
        if !control.leaving then Interpreter.runStatement env exec line.text : Run σ Unit) (session.placed control))
      ((decision >>= pure) session) := by
    refine passes.bind fun done taken after reached => ?_
    obtain ⟨rfl, same⟩ := reached
    exact Simulates.pure same
  rwa [bind_pure] at ends

theorem opening_simulates (quiet : Quiet env) (live : control.Live inLoop) (line : TestLine .opening) :
    Simulates control (flatLine env (depth + 1) line.toBodyLine)
      (visit env line.toBodyLine (Interpreter.decideCondition env .opening line.condition))
      (fun _ taken after =>
        after = { control with conditions := (if taken then .ifTrue else .ifFalse) :: control.conditions })
      control.Breaks := by
  have judged : Flow.judge control.leaving control.conditions line.text = .asks .opening line.condition := by
    rw [Flow.judge_of_test line.role line.tested, live.notLeaving]
    simp [Flow.testLine, live.running]
  refine visit_simulates quiet fun session _ => ?_
  rw [execLine_single]
  refine (statement_asks live.reading line.toScriptLine judged _ session).weaken (fun _ _ _ same => same)
    fun after same => ?_
  rcases same with rfl | rfl
  · exact ⟨rfl, List.suffix_refl _, rfl⟩
  · exact ⟨rfl, List.suffix_refl _, rfl⟩

theorem continuing_simulates (quiet : Quiet env) (live : control.Live inLoop) {branch : Branch}
    (pending : branch.isPending) (line : TestLine .continuing) :
    Simulates { control with conditions := branch :: control.conditions } (flatLine env (depth + 1) line.toBodyLine)
      (visit env line.toBodyLine (Interpreter.decideCondition env .continuing line.condition))
      (fun _ taken after =>
        after = { control with conditions := (if taken then .elseifTrue else .elseifFalse) :: control.conditions })
      control.Breaks := by
  have judged : Flow.judge (Control.leaving { control with conditions := branch :: control.conditions })
      (branch :: control.conditions) line.text = .asks .continuing line.condition := by
    have stays : Control.leaving { control with conditions := branch :: control.conditions } = false := live.notLeaving
    rw [Flow.judge_of_test line.role line.tested, stays]
    cases branch <;> first | rfl | cases pending
  refine visit_simulates quiet fun session _ => ?_
  rw [execLine_single]
  refine (statement_asks (live.reading.withConditions _) line.toScriptLine judged _ session).weaken
    (fun _ _ _ same => same) fun after same => ?_
  rcases same with rfl | rfl
  · exact ⟨rfl, List.suffix_cons _ _, rfl⟩
  · exact ⟨rfl, List.suffix_cons _ _, rfl⟩

theorem header_simulates (quiet : Quiet env) (live : control.Live inLoop) (header : BlockLine .header) :
    Simulates control (flatLine env (depth + 1) header.toBodyLine)
      (visit env header.toBodyLine (openHeader env header.text))
      (fun _ loop after => Fresh env loop ∧ after = opened control loop) control.Breaks := by
  refine visit_simulates quiet fun session _ => ?_
  obtain ⟨_, _, opens⟩ := Flow.describes_of_role header.role
  rw [execLine_single, statement_live live header.toScriptLine header.role rfl]
  have starts : Interpreter.runStatement env (Interpreter.execLine env depth) header.text =
      Interpreter.startLoop env header.text := by
    unfold Interpreter.runStatement
    simp only [opens, ↓reduceIte]
  rw [starts]
  refine (startLoop_simulates env control header.text session).weaken (fun _ _ _ ended => ended) fun after same => ?_
  obtain ⟨blocks, rfl⟩ := same
  exact .refl control blocks

theorem close_simulates (quiet : Quiet env) {loop : Loop} (fresh : Fresh env loop) {lines : List BodyLine}
    {body : Run σ Bool} (runs : BodyRuns env depth lines body control.aliases control.conditions control.loops)
    (close : BlockLine .loopEnd) :
    Simulates { opened control loop with loops := loop.read lines :: control.loops }
      (flatLine env (depth + 1) close.toBodyLine)
      (visit env close.toBodyLine (runLoop env loop close.number body))
      (fun _ _ after => control.Reaches false after) control.Breaks := by
  refine visit_simulates quiet fun session atEnd => ?_
  have collects : Control.collecting { opened control loop with loops := loop.read lines :: control.loops } :=
    fresh.collects
  have counted : (session.placed
      { opened control loop with loops := loop.read lines :: control.loops }).frame.blocks.track close.text =
      (⟨0, 0⟩, .ok true) := Flow.track_loopEnd close.role
  rw [execLine_single, statement_collecting close.toScriptLine _ collects, Interpreter.collect_counted, counted]
  have ends := endLoop_simulates runs fresh ⟨0, 0⟩ session atEnd
  exact ends.weaken (fun _ _ _ ended => ⟨ended.2.aliases, ended.1, ended.2.loops, nofun⟩)
    fun _ closed => ⟨closed.aliases, closed.conditions, closed.loops⟩

theorem taken_simulates (live : control.Live inLoop) {taken : Branch} {body : Run σ Bool}
    {bodyLines restLines : List BodyLine}
    (bodyRuns : Simulates { control with conditions := taken :: control.conditions }
      (flat env (depth + 1) bodyLines) body
      (fun _ left after => Control.Reaches { control with conditions := taken :: control.conditions } left after)
      (Control.Breaks { control with conditions := taken :: control.conditions }))
    (restPasses : ∀ after : Control, after.Reading → Passes env (depth + 1)
      { after with conditions := taken :: after.conditions } restLines after) :
    Simulates { control with conditions := taken :: control.conditions }
      (do flat env (depth + 1) bodyLines; flat env (depth + 1) restLines)
      (do
        let left ← body
        pass env restLines
        return left)
      (fun _ left after => control.Reaches left after) control.Breaks := by
  have broken {after : Control}
      (inner : Control.Breaks { control with conditions := taken :: control.conditions } after) :
      control.Breaks after :=
    ⟨inner.aliases, (List.suffix_cons _ _).trans inner.conditions, inner.loops⟩
  refine Simulates.bind (bodyRuns.weaken (fun _ _ _ reached => reached) fun _ inner => broken inner)
    fun _ left after reached => ?_
  let popped : Control := { after with conditions := control.conditions }
  have returns : control.Reaches left popped := ⟨reached.aliases, rfl, reached.loops, reached.inside⟩
  have same : after = { popped with conditions := taken :: popped.conditions } := by
    obtain ⟨_, _, _, _⟩ := after
    obtain ⟨_, conditions, _, _⟩ := reached
    dsimp only at conditions
    rw [conditions]
  rw [same]
  refine Simulates.returning ((restPasses popped (live.readingLeft returns)).weaken (fun _ _ _ same => same)
    fun _ => False.elim) fun _ _ last popped => ?_
  rw [popped]
  exact returns

theorem branch_simulates (live : control.Live inLoop) {decided : Bool} {taken skipped : Branch}
    {body rest : Run σ Bool} {bodyLines restLines : List BodyLine}
    (bodyRuns : Simulates { control with conditions := taken :: control.conditions }
      (flat env (depth + 1) bodyLines) body
      (fun _ left after => Control.Reaches { control with conditions := taken :: control.conditions } left after)
      (Control.Breaks { control with conditions := taken :: control.conditions }))
    (bodyPasses : Passes env (depth + 1) { control with conditions := skipped :: control.conditions } bodyLines
      { control with conditions := skipped :: control.conditions })
    (restRuns : Simulates { control with conditions := skipped :: control.conditions }
      (flat env (depth + 1) restLines) rest (fun _ left after => control.Reaches left after) control.Breaks)
    (restPasses : ∀ after : Control, after.Reading → Passes env (depth + 1)
      { after with conditions := taken :: after.conditions } restLines after) :
    Simulates { control with conditions := (if decided then taken else skipped) :: control.conditions }
      (do flat env (depth + 1) bodyLines; flat env (depth + 1) restLines)
      (branch env decided body rest bodyLines restLines)
      (fun _ left after => control.Reaches left after) control.Breaks := by
  cases decided with
  | true => exact taken_simulates live bodyRuns restPasses
  | false => exact Simulates.next (bodyPasses.weaken (fun _ _ _ same => same) fun _ => False.elim) fun _ _ => restRuns

theorem unlessLeft_simulates (quiet : Quiet env) (live : control.Live inLoop) {left : Bool} {after : Control}
    (reached : control.Reaches left after) (next : Script inLoop)
    (runs : after.Live inLoop → Simulates after (flat env (depth + 1) next.lines) (next.exec env)
      (fun _ left last => after.Reaches left last) after.Breaks) :
    Simulates after (flat env (depth + 1) next.lines) (unlessLeft env left (next.exec env) next.lines)
      (fun _ left last => control.Reaches left last) control.Breaks := by
  cases left with
  | false =>
      exact (runs (live.reached reached)).weaken (fun _ _ _ ended => reached.trans ended)
        fun _ broken => reached.breaks broken
  | true =>
      have idle : Idle after := by
        refine .inl ?_
        unfold Control.leaving
        rw [reached.loops]
        cases loops : control.loops with
        | nil => exact absurd loops (reached.inside rfl)
        | cons loop outer => rfl
      refine Simulates.returning ((next.passes_idle quiet (live.readingLeft reached) idle).weaken
        (fun _ _ _ same => same) fun _ => False.elim) fun _ _ last same => ?_
      rw [same]
      exact reached

end Structured

open Structured

variable {env : Env σ}

mutual

/-- From a control at which lines run, the lines of a script do what the script does. -/
theorem Script.simulates (quiet : Quiet env) {inLoop : Bool} {control : Control} {depth : Nat}
    (script : Script inLoop) (shallow : script.nesting ≤ depth) (live : control.Live inLoop) :
    Simulates control (flat env (depth + 1) script.lines) (script.exec env)
      (fun _ left after => control.Reaches left after) control.Breaks :=
  match script with
  | .done => Simulates.pure (.refl control control.blocks)
  | .plain line next => Simulates.next (plain_simulates quiet live line) fun _ _ => next.simulates quiet shallow live
  | .leave line next => by
      have reached : control.Reaches true
          { control with loops := control.loops.modifyHead ({ · with mode := .leaving }) } :=
        ⟨rfl, rfl, rfl, live.inside⟩
      refine Simulates.next ((leave_passes quiet live line).weaken (fun _ _ _ same => same) fun _ => False.elim)
        fun _ _ => ?_
      exact unlessLeft_simulates quiet live reached next fun live => next.simulates quiet shallow live
  | .back line next => Simulates.next (back_simulates quiet live line) fun _ _ => next.simulates quiet shallow live
  | .choice line body rest next => by
      simp only [Script.nesting, Nat.max_le] at shallow
      obtain ⟨bodyShallow, restShallow, nextShallow⟩ := shallow
      rw [Script.lines, flat_cons, ← List.append_assoc, flat_append, flat_append]
      refine Simulates.bind (opening_simulates quiet live line) fun _ taken after same => ?_
      subst same
      refine Simulates.bind (branch_simulates live
        (body.simulates quiet bodyShallow (live.withBranch rfl))
        (body.passes_idle quiet (live.reading.withConditions _) (.inr rfl))
        (rest.simulates quiet restShallow live rfl)
        (fun after reading => rest.passes quiet reading (.inl rfl))) fun _ left after reached => ?_
      exact unlessLeft_simulates quiet live reached next fun live => next.simulates quiet nextShallow live
  | .loop header body close next => by
      simp only [Script.nesting, Nat.max_le] at shallow
      obtain ⟨bodyShallow, nextShallow⟩ := shallow
      rw [Script.lines, flat_cons, flat_append, flat_cons]
      refine Simulates.bind (header_simulates quiet live header) fun _ loop after opens => ?_
      obtain ⟨fresh, rfl⟩ := opens
      refine Simulates.next ((body.tracks Int.one_pos).passes quiet fresh.collects |>.weaken (fun _ _ _ same => same)
        fun _ => False.elim) fun _ _ => ?_
      -- the body is replayed one level deeper
      obtain ⟨inner, rfl⟩ : ∃ inner, depth = inner + 1 := ⟨depth - 1, by omega⟩
      have runs : BodyRuns env (inner + 1) body.lines
          (body.exec env) control.aliases control.conditions control.loops := by
        intro loop blocks replaying unaliased
        refine body.simulates quiet (by omega) ⟨⟨live.unaliased.1, ?_⟩, live.running, ?_, nofun⟩
        · intro other member
          rcases List.mem_cons.mp member with rfl | member
          · exact unaliased
          · exact live.unaliased.2 other member
        · rintro _ ⟨⟩
          exact replaying
      refine Simulates.bind (close_simulates quiet fresh runs close) fun _ _ after reached => ?_
      exact (next.simulates quiet nextShallow (live.reached reached)).weaken (fun _ _ _ ended => reached.trans ended)
        fun _ broken => reached.breaks broken

theorem Branches.simulates (quiet : Quiet env) {inLoop : Bool} {control : Control} {depth : Nat}
    (rest : Branches inLoop) (shallow : rest.nesting ≤ depth) (live : control.Live inLoop) {branch : Branch}
    (pending : branch.isPending) :
    Simulates { control with conditions := branch :: control.conditions } (flat env (depth + 1) rest.lines)
      (rest.exec env) (fun _ left after => control.Reaches left after) control.Breaks :=
  match rest with
  | .close line =>
      Simulates.next ((consumed_passes quiet (live.reading.withConditions _) line.toScriptLine
        (Flow.judge_of_chainEnd line.role)).weaken (fun _ _ _ same => same) fun _ => False.elim)
        fun _ _ => Simulates.pure (.refl control control.blocks)
  | .otherwise line body close => by
      have judged : Flow.judge (Control.leaving { control with conditions := branch :: control.conditions })
          (branch :: control.conditions) line.text = .consumed (.elseTrue :: control.conditions) := by
        rw [Flow.judge_of_otherwise line.role]
        simp [pending, Flow.replaceTop]
      have closes (after : Control) (reading : after.Reading) : Passes env (depth + 1)
          { after with conditions := .elseTrue :: after.conditions } [close.toBodyLine] after :=
        .cons (consumed_passes quiet (reading.withConditions _) close.toScriptLine
          (Flow.judge_of_chainEnd close.role)) .nil
      rw [Branches.lines, flat_cons, flat_append]
      refine Simulates.next ((consumed_passes quiet (live.reading.withConditions _) line.toScriptLine judged).weaken
        (fun _ _ _ same => same) fun _ => False.elim) fun _ _ => ?_
      exact taken_simulates live (body.simulates quiet shallow (live.withBranch rfl)) closes
  | .elseIf line body rest => by
      simp only [Branches.nesting, Nat.max_le] at shallow
      obtain ⟨bodyShallow, restShallow⟩ := shallow
      rw [Branches.lines, flat_cons, flat_append]
      refine Simulates.bind (continuing_simulates quiet live pending line) fun _ taken after same => ?_
      subst same
      exact branch_simulates live
        (body.simulates quiet bodyShallow (live.withBranch rfl))
        (body.passes_idle quiet (live.reading.withConditions _) (.inr rfl))
        (rest.simulates quiet restShallow live rfl)
        (fun after reading => rest.passes quiet reading (.inl rfl))

end

end CommandScript
