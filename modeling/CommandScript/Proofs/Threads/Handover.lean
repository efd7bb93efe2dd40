import CommandScript.Proofs.Threads.Refinement

/-!
The feeder is at most one line ahead of the runner, and the line that is put finds the hand-off empty.
Until the stop flag is up this follows from the token that the threads pass between them. The permit that
the end of a session adds is not covered by a token, but by then nothing new is sent: a feeder that was
already past its look at the flag puts one more line, and the hand-off that it puts it into was empty when
it passed.
-/

namespace CommandScript

variable {σ : Type}

def Paced.idleUntil (deadline : Float) (bound : Nat) : EStateM Fault (Paced σ) Unit :=
  Timers.runUntil (return (← get).timers) (fun timers => modify ({ · with timers }))
    (fun _ => modify fun paced => paced.schedule paced.period) deadline bound

namespace Executor

def withHost (executor : Executor σ) (host : Paced σ) : Executor σ :=
  { executor with session := { executor.session with host } }

def onHost {α : Type} (request : EStateM Fault (Paced σ) α) : Job σ α := fun executor =>
  match request executor.session.host with
  | .ok value host => .ok value (executor.withHost host)
  | .error fault host => .error (.fault fault) (executor.withHost host)

theorem tick_waiting (env : Env (Paced σ)) (depth : Nat) (executor : Executor σ)
    (goesOn : (executor.stopFlag || executor.session.stopped) = false)
    (waits : executor.session.host.waiting = true) :
    tick env depth executor = schedule executor.session.host.period executor := by
  simp only [tick, bind, EStateM.bind, EStateM.get_apply, goesOn, waits, Bool.false_eq_true, if_false, if_true]

theorem tick_finished (env : Env (Paced σ)) (depth : Nat) (executor : Executor σ)
    (stops : executor.stopFlag = true) (finished : executor.finished = true) :
    tick env depth executor = .ok () executor := by
  rw [Threads.tick_stopping env depth executor (by simp [stops])]
  simp only [shutdown, bind, EStateM.bind, EStateM.get_apply, finished, if_true]
  rfl

theorem runUntil_waiting (env : Env (Paced σ)) (depth : Nat) (deadline : Float) (bound : Nat)
    (executor : Executor σ) (goesOn : (executor.stopFlag || executor.session.stopped) = false)
    (waits : executor.session.host.waiting = true) :
    ∃ host, Paced.idleUntil deadline bound executor.session.host = .ok () host ∧
      runUntil env depth bound deadline executor = .ok () (executor.withHost host) := by
  induction bound generalizing executor with
  | zero => exact ⟨executor.session.host, rfl, rfl⟩
  | succ bound ih =>
      cases next : executor.session.host.timers.stepUntil deadline with
      | done timers =>
          refine ⟨{ executor.session.host with timers }, ?_, ?_⟩
          · simp only [Paced.idleUntil, Timers.runUntil, bind, EStateM.bind, EStateM.get_apply, pure,
              EStateM.pure, next]
            rfl
          · simp only [runUntil, Timers.runUntil, Executor.timers, bind, EStateM.bind, EStateM.get_apply, pure,
              EStateM.pure, next]
            rfl
      | fire payload timers =>
          let after := executor.withHost { executor.session.host with timers }
          have later := ih (after.withHost (after.session.host.schedule after.session.host.period)) goesOn waits
          obtain ⟨host, idle, same⟩ := later
          refine ⟨host, ?_, ?_⟩
          · simp only [Paced.idleUntil, Timers.runUntil, bind, EStateM.bind, EStateM.get_apply, pure,
              EStateM.pure, next]
            exact idle
          · have ticks : tick env depth after = schedule after.session.host.period after :=
              tick_waiting env depth after goesOn waits
            simp only [runUntil, Timers.runUntil, Executor.timers, bind, EStateM.bind, EStateM.get_apply, pure,
              EStateM.pure, next]
            rw [show storeTimers timers executor = .ok () after from rfl]
            simp only [ticks]
            exact same

theorem wait_onHost (env : Env (Paced σ)) (depth bound : Nat) (milliseconds : Int) (executor : Executor σ)
    (goesOn : (executor.stopFlag || executor.session.stopped) = false) :
    wait env depth bound milliseconds executor = onHost (Paced.wait bound milliseconds) executor := by
  cases due : executor.session.host.after milliseconds with
  | error fault =>
      simp only [wait, onHost, Paced.wait, bind, EStateM.bind, EStateM.get_apply, due]
      rfl
  | ok deadline =>
      let during := executor.withHost { executor.session.host with waiting := true }
      obtain ⟨host, idle, same⟩ := runUntil_waiting env depth deadline bound during goesOn rfl
      have waited : Paced.wait bound milliseconds executor.session.host = .ok () { host with waiting := false } := by
        simp only [Paced.wait, bind, EStateM.bind, EStateM.get_apply, due]
        rw [show (MonadExcept.ofExcept (.ok deadline) : EStateM Fault (Paced σ) Float) executor.session.host =
          .ok deadline executor.session.host from rfl]
        simp only [EStateM.modify_apply]
        simp only [Paced.idleUntil, bind] at idle
        rw [show ({ executor.session.host with waiting := true } : Paced σ) = during.session.host from rfl]
        simp only [idle]
      simp only [wait, bind, EStateM.bind, EStateM.get_apply, due, onHost, waited, pure, EStateM.pure]
      rw [show modifyPaced ({ · with waiting := true }) executor = .ok () during from rfl]
      simp only [same]
      rfl

end Executor

namespace Threads

namespace FeederPhase

def unput : FeederPhase → Nat
  | putting _ => 1
  | _ => 0

def isPast : FeederPhase → Bool
  | sending _ | putting _ => true
  | _ => false

end FeederPhase

/-- The line that has been given to the session but has not been run. -/
def RunnerPhase.unrun : RunnerPhase → Nat
  | running _ => 1
  | _ => 0

namespace Feeder

theorem choose_sent (feeder : Feeder) (stop : Bool) :
    (feeder.choose stop).sent = feeder.sent ∧ (feeder.choose stop).phase.unput = 0 ∧
      ((feeder.choose stop).phase.isPast = true → stop = false) := by
  obtain ⟨phase, directives, physical, number, sent, warnings⟩ := feeder
  cases stop with
  | true => simp [choose, FeederPhase.unput, FeederPhase.isPast]
  | false =>
      cases directives with
      | cons directive rest => simp [choose, FeederPhase.unput]
      | nil => cases physical <;> simp [choose, FeederPhase.unput]

theorem complete_sent (feeder : Feeder) (part : Lines.Open) :
    (feeder.complete part).sent = feeder.sent ∧ (feeder.complete part).phase.unput = 0 ∧
      (feeder.complete part).phase.isPast = false := by
  unfold complete
  split <;> exact ⟨rfl, rfl, rfl⟩

theorem read_sent (feeder : Feeder) (part : Option Lines.Open) :
    (feeder.read part).sent = feeder.sent ∧ (feeder.read part).phase.unput = 0 ∧
      (feeder.read part).phase.isPast = false := by
  cases left : feeder.physical.getD [] with
  | nil =>
      cases part with
      | none => simp [read, left, FeederPhase.unput, FeederPhase.isPast]
      | some part => simp [read, left, complete_sent]
  | cons raw rest =>
      simp only [read, left]
      rcases Lines.extend part raw with ⟨after, follows, warns⟩
      cases follows with
      | true => simp [FeederPhase.unput, FeederPhase.isPast]
      | false => simp [complete_sent]

end Feeder

/-- What holds of the counts of both threads after every step. -/
structure InStep (state : State σ) : Prop where
  sent : state.feeder.sent =
    state.given.length + state.handoff.line.toList.length + state.feeder.phase.unput
  linesRun : state.linesRun + state.phase.unrun = state.given.length
  free : state.feeder.phase.isPast = true → state.handoff.line = none

theorem feederStep_inStep (lines : List Text) (state : State σ) (inOrder : InOrder lines state)
    (before : InStep state) : InStep state.feederStep := by
  have ⟨sent, linesRun, free⟩ := before
  -- a feeder that has just looked at the flag has no token out
  have free_of_going : state.stopFlag = false → state.feeder.phase.tokens = 0 → state.handoff.line = none := by
    intro goesOn noToken
    have balance := inOrder.tokens goesOn
    have empty : state.handoff.line.toList = [] := List.eq_nil_of_length_eq_zero (by omega)
    exact Option.toList_eq_nil_iff.mp empty
  cases phase : state.feeder.phase with
  | choosing =>
      obtain ⟨same, notPut, past⟩ := state.feeder.choose_sent state.stopFlag
      simp only [State.feederStep, phase]
      refine ⟨?_, linesRun, ?_⟩
      · rw [same, notPut, sent, phase]
        rfl
      · intro isPast
        exact free_of_going (past isPast) (by simp [phase, FeederPhase.tokens])
  | reading part =>
      obtain ⟨same, notPut, notPast⟩ := state.feeder.read_sent part
      simp only [State.feederStep, phase]
      refine ⟨?_, linesRun, ?_⟩
      · rw [same, notPut, sent, phase]
        rfl
      · simp [notPast]
  | checking line =>
      simp only [State.feederStep, phase]
      rw [phase] at sent
      cases stop : state.stopFlag with
      | true => exact ⟨sent, linesRun, by simp [FeederPhase.isPast]⟩
      | false =>
          refine ⟨sent, linesRun, ?_⟩
          intro _
          exact free_of_going stop (by simp [phase, FeederPhase.tokens])
  | sending line =>
      simp only [State.feederStep, phase]
      rw [phase] at sent free
      refine ⟨?_, linesRun, fun _ => free rfl⟩
      simp only [sent, FeederPhase.unput]
  | putting line =>
      simp only [State.feederStep, phase]
      rw [phase] at sent free
      refine ⟨?_, linesRun, by simp [FeederPhase.isPast]⟩
      simpa [free rfl, FeederPhase.unput, Handoff.put] using sent
  | waiting =>
      cases permits : state.permits with
      | zero => simpa only [State.feederStep, phase, permits] using before
      | succ left =>
          simp only [State.feederStep, phase, permits]
          rw [phase] at sent
          exact ⟨sent, linesRun, by simp [FeederPhase.isPast]⟩
  | closing =>
      simp only [State.feederStep, phase]
      rw [phase] at sent
      exact ⟨sent, linesRun, by simp [FeederPhase.isPast]⟩
  | ended => simpa only [State.feederStep, phase] using before

-- Where the runner neither takes a line nor ends one, the counts are what they were.
theorem InStep.of_phase (state : State σ) (before : InStep state) (session : Session σ) (permits announced : Nat)
    (stopFlag finished : Bool) (phase : RunnerPhase) (unrun : phase.unrun = state.phase.unrun) :
    InStep { state with session, permits, announced, stopFlag, finished, phase } := by
  obtain ⟨sent, linesRun, free⟩ := before
  refine ⟨sent, ?_, free⟩
  rw [unrun]
  exact linesRun

theorem runnerStep_inStep (env : Env σ) (depth : Nat) (state : State σ) (before : InStep state) :
    InStep (state.runnerStep env depth) := by
  have ⟨sent, linesRun, free⟩ := before
  cases phase : state.phase with
  | polling =>
      cases pending : state.handoff.line with
      | none =>
          simp only [State.runnerStep, phase, state.handoff.poll_none pending]
          exact before.of_phase _ _ _ _ _ _ _ (by rw [phase]; rfl)
      | some line =>
          -- the line goes from the hand-off to the lines that are given
          simp only [State.runnerStep, phase, state.handoff.poll_some line pending]
          rw [pending] at sent
          rw [phase] at linesRun
          refine ⟨?_, ?_, fun _ => rfl⟩
          · simpa using sent
          · simpa [RunnerPhase.unrun] using linesRun
  | running line =>
      simp only [State.runnerStep, phase]
      rw [phase] at linesRun
      split
      all_goals exact ⟨sent, linesRun, free⟩
  | idle | draining | judging =>
      simp only [State.runnerStep, phase]
      refine before.of_phase _ _ _ _ _ _ _ ?_
      split <;> simp [phase, RunnerPhase.unrun]
  | ending =>
      simp only [State.runnerStep, phase]
      split
      all_goals exact before.of_phase _ _ _ _ _ _ _ (by rw [phase]; rfl)
  | done | dead => simpa only [State.runnerStep, phase] using before
  | ran | closingFiles | releasing | raising =>
      simp only [State.runnerStep, phase]
      exact before.of_phase _ _ _ _ _ _ _ (by rw [phase]; rfl)

theorem initial_inStep (directives : List Text) (physical : Option (List Text)) (start : Session σ) :
    InStep (State.initial directives physical start) :=
  ⟨rfl, rfl, by simp [State.initial, FeederPhase.isPast]⟩

theorem run_inStep (env : Env σ) (depth : Nat) (lines : List Text) (schedule : List Thread) (state : State σ)
    (inOrder : InOrder lines state) (inStep : InStep state) : InStep (state.run env depth schedule) := by
  induction schedule generalizing state with
  | nil => exact inStep
  | cons thread rest ih =>
      cases thread with
      | feeder => exact ih _ (feederStep_inOrder lines state inOrder) (feederStep_inStep lines state inOrder inStep)
      | runner =>
          exact ih _ (runnerStep_inOrder env depth lines state inOrder) (runnerStep_inStep env depth state inStep)

theorem waiting_of_running (lines : List Text) (state : State σ) (inOrder : InOrder lines state) (line : Text)
    (running : state.phase = .running line) :
    state.feeder.phase = .waiting ∧ state.permits = 0 ∧ state.handoff.line = none := by
  have goesOn : state.stopFlag = false := by simp [inOrder.stopFlag, running, RunnerPhase.isEnding]
  have balance := inOrder.tokens goesOn
  rw [running, RunnerPhase.tokens] at balance
  have waiting : state.feeder.phase = .waiting := by
    cases phase : state.feeder.phase with
    | waiting => rfl
    | _ => simp [phase, FeederPhase.tokens] at balance
  rw [waiting, FeederPhase.tokens] at balance
  have empty : state.handoff.line.toList = [] := List.eq_nil_of_length_eq_zero (by omega)
  exact ⟨waiting, by omega, Option.toList_eq_nil_iff.mp empty⟩

theorem sent_le (lines : List Text) (state : State σ) (inOrder : InOrder lines state) (inStep : InStep state) :
    state.feeder.sent ≤ state.linesRun + 1 := by
  obtain ⟨sent, linesRun, free⟩ := inStep
  cases stop : state.stopFlag with
  | false =>
      -- the line that is out is in the hand-off, with the runner or about to be put
      have balance := inOrder.tokens stop
      have unrun : state.phase.unrun ≤ state.phase.tokens := by
        cases state.phase <;> simp [RunnerPhase.unrun, RunnerPhase.tokens]
      have atMost : state.feeder.phase.unput + state.feeder.phase.tokens ≤ 1 := by
        cases state.feeder.phase <;> simp [FeederPhase.unput, FeederPhase.tokens]
      omega
  | true =>
      have idle : state.phase.unrun = 0 := by
        have ending : state.phase.isEnding = true := by rw [← inOrder.stopFlag, stop]
        cases phase : state.phase <;> simp_all [RunnerPhase.unrun, RunnerPhase.isEnding]
      have atMost : state.handoff.line.toList.length + state.feeder.phase.unput ≤ 1 := by
        cases past : state.feeder.phase.isPast with
        | true =>
            rw [free past]
            cases state.feeder.phase <;> simp [FeederPhase.unput]
        | false =>
            have notPut : state.feeder.phase.unput = 0 := by
              cases phase : state.feeder.phase <;> simp_all [FeederPhase.unput, FeederPhase.isPast]
            cases state.handoff.line <;> simp [notPut]
      omega

namespace RunnerPhase

def endRank : RunnerPhase → Nat
  | closingFiles => 1
  | releasing => 2
  | done => 3
  | _ => 0

end RunnerPhase

/-- How often the runner leaves a place along a schedule. -/
def leavings (env : Env σ) (depth : Nat) (place : RunnerPhase) : State σ → List Thread → Nat
  | _, [] => 0
  | state, thread :: rest =>
    (if thread = .runner ∧ state.phase = place then 1 else 0) +
      leavings env depth place (state.step env depth thread) rest

-- The end goes from place to place and never back.
theorem runnerStep_endRank (env : Env σ) (depth : Nat) (state : State σ) :
    state.phase.endRank ≤ (state.runnerStep env depth).phase.endRank ∧
      (state.phase.endRank ∈ [1, 2] → state.phase.endRank < (state.runnerStep env depth).phase.endRank) := by
  cases phase : state.phase <;> simp [State.runnerStep, phase, RunnerPhase.endRank]

theorem leavings_le (env : Env σ) (depth : Nat) (place : RunnerPhase) (ends : place.endRank ∈ [1, 2])
    (schedule : List Thread) (state : State σ) :
    leavings env depth place state schedule ≤ if state.phase.endRank ≤ place.endRank then 1 else 0 := by
  induction schedule generalizing state with
  | nil => exact Nat.zero_le _
  | cons thread rest ih =>
      cases thread with
      | feeder =>
          have later := ih state.feederStep
          rw [(feederStep_frame state).1] at later
          simpa [leavings, State.step] using later
      | runner =>
          obtain ⟨grows, moves⟩ := runnerStep_endRank env depth state
          have later := ih (state.runnerStep env depth)
          by_cases here : state.phase = place
          · have moved : place.endRank < (state.runnerStep env depth).phase.endRank := by
              rw [← here]
              exact moves (here ▸ ends)
            rw [if_neg (by omega)] at later
            simp only [leavings, State.step, here, and_self, if_true, Nat.le_refl]
            omega
          · simp only [leavings, State.step, here, and_false, if_false, Nat.zero_add]
            by_cases reached : (state.runnerStep env depth).phase.endRank ≤ place.endRank
            · rw [if_pos reached] at later
              rw [if_pos (Nat.le_trans grows reached)]
              exact later
            · rw [if_neg reached] at later
              exact Nat.le_trans later (Nat.zero_le _)

theorem feederStep_announced (state : State σ) : state.feederStep.announced = state.announced := by
  unfold State.feederStep
  split
  case h_6 => split <;> rfl
  all_goals rfl

theorem runnerStep_announced (env : Env σ) (depth : Nat) (state : State σ) :
    (state.runnerStep env depth).announced = state.announced + if state.phase = .releasing then 1 else 0 := by
  cases phase : state.phase with
  | polling => cases pending : state.handoff.line <;> simp [State.runnerStep, phase, Handoff.poll, pending]
  | running line =>
      cases parsed : Interpreter.parseLine env depth line state.session <;>
        simp [State.runnerStep, phase, parsed]
  | ending => cases finished : state.finished <;> simp [State.runnerStep, phase, finished]
  | _ => simp [State.runnerStep, phase]

theorem run_announced (env : Env σ) (depth : Nat) (schedule : List Thread) (state : State σ) :
    (state.run env depth schedule).announced =
      state.announced + leavings env depth .releasing state schedule := by
  induction schedule generalizing state with
  | nil => rfl
  | cons thread rest ih =>
      have now : (state.step env depth thread).announced =
          state.announced + if thread = .runner ∧ state.phase = .releasing then 1 else 0 := by
        cases thread with
        | feeder => simpa [State.step] using feederStep_announced state
        | runner => simpa [State.step] using runnerStep_announced env depth state
      have later := ih (state.step env depth thread)
      rw [now] at later
      simp only [leavings, ← Nat.add_assoc]
      exact later

/-- For every schedule: while the runner is within a line, in its waits too, the feeder has sent as many
lines as were given and is blocked; it is never more than one line ahead; a line is put only into an empty
hand-off; and the end closes the files once and is announced once. A tick of the executor between two lines
is some turns of the runner that the feeder does not interrupt, and after the end it does nothing. -/
theorem run_in_step (env : Env (Paced σ)) (depth : Nat) (directives : List Text)
    (physical : Option (List Text)) (start : Session (Paced σ)) (schedule : List Thread) :
    let initial := State.initial directives physical start
    let state := initial.run env depth schedule
    (∀ line, state.phase = .running line →
      state.feeder.sent = state.given.length ∧ state.linesRun + 1 = state.given.length ∧
      state.feeder.phase = .waiting ∧ state.feederStep = state ∧
      ∀ (executor : Executor σ) (bound : Nat) (milliseconds : Int), executor.stopFlag = state.stopFlag →
        executor.session.stopped = state.session.stopped →
        Executor.wait env depth bound milliseconds executor =
          Executor.onHost (Paced.wait bound milliseconds) executor) ∧
    state.feeder.sent ≤ state.linesRun + 1 ∧
    (∀ line, state.feeder.phase = .putting line → state.handoff.line = none) ∧
    leavings env depth .closingFiles initial schedule ≤ 1 ∧
    state.announced = leavings env depth .releasing initial schedule ∧ state.announced ≤ 1 ∧
    (state.phase = .done → ∀ timers,
      Executor.tick env depth (state.toExecutor timers) = .ok () (state.toExecutor timers)) ∧
    (state.phase = .idle → state.session.host.waiting = false → ∃ turns,
      let next := initial.run env depth (schedule ++ List.replicate turns .runner)
      match Executor.tick env depth (state.toExecutor state.session.host.timers) with
      | .ok () after =>
        after = next.toExecutor after.session.host.timers ∧ (next.phase = .idle ∨ next.phase = .done)
      | .error _ after => after = next.toExecutor after.session.host.timers ∧ next.phase = .dead) := by
  intro initial state
  let lines := sessionLines directives physical
  have starts : InOrder lines initial := initial_inOrder directives physical start
  -- the invariants hold after every step, so along the schedule up to this state
  obtain ⟨inOrder, progress⟩ : InOrder lines state ∧ Progress env depth lines start state :=
    run_keeps env depth lines start schedule initial starts Ran.none
  have inStep : InStep state :=
    run_inStep env depth lines schedule initial starts (initial_inStep directives physical start)
  have announced : state.announced = leavings env depth .releasing initial schedule := by
    rw [run_announced env depth schedule initial]
    exact Nat.zero_add _
  refine ⟨?_, sent_le lines state inOrder inStep, ?_, ?_, announced, ?_, ?_, ?_⟩
  · intro line running
    obtain ⟨waiting, noPermit, empty⟩ := waiting_of_running lines state inOrder line running
    refine ⟨?_, ?_, waiting, ?_, ?_⟩
    · rw [inStep.sent, empty, waiting]
      rfl
    · rw [← inStep.linesRun, running]
      rfl
    · simp only [State.feederStep, waiting, noPermit]
    · intro executor bound milliseconds sameFlag sameEnd
      apply Executor.wait_onHost
      simp only [Progress, running] at progress
      obtain ⟨_, _, _, notStopped⟩ := progress
      simp [sameFlag, sameEnd, notStopped, inOrder.stopFlag, running, RunnerPhase.isEnding]
  · intro line putting
    exact inStep.free (by simp [putting, FeederPhase.isPast])
  · exact leavings_le env depth .closingFiles (by decide) schedule initial
  · rw [announced]
    exact leavings_le env depth .releasing (by decide) schedule initial
  · intro done timers
    apply Executor.tick_finished
    · simp [State.toExecutor, inOrder.stopFlag, done, RunnerPhase.isEnding]
    · simp [State.toExecutor, inOrder.finished, done, RunnerPhase.isEnding]
  · intro idle awake
    have unfinished : state.finished = false := by simp [inOrder.finished, idle, RunnerPhase.isEnding]
    obtain ⟨turns, ticked⟩ := tick_eq_run env depth (state.toExecutor state.session.host.timers) state.feeder
      state.permits state.given unfinished awake
    rw [state.ofExecutor_toExecutor idle] at ticked
    refine ⟨turns, ?_⟩
    rw [State.run_append]
    exact ticked

/-- The feeder has passed its look at the flag when the session ends: it puts one more line. -/
theorem lateLine_in_step :
    let env := ({} : Env Unit).paced 5
    let initial := State.initial ["quit 3", "x = 1"] none (Session.start {} ({ host := () } : Paced Unit))
    let first := List.replicate 3 Thread.feeder ++ List.replicate 2 .runner
    let late := first ++ List.replicate 2 .runner ++ List.replicate 3 .feeder ++ List.replicate 4 .runner
    let running := initial.run env 3 first
    let ended := initial.run env 3 late
    (running.phase = .running "quit 3" ∧ running.feeder.sent = running.given.length ∧
      running.feeder.phase = .waiting ∧ running.feederStep = running) ∧
    (ended.feeder.phase = .putting "x = 1" ∧ ended.phase = .done ∧ ended.handoff.line = none ∧
      ended.linesRun = 1 ∧ ended.feeder.sent ≤ ended.linesRun + 1 ∧ ended.announced ≤ 1 ∧
      leavings env 3 .closingFiles initial late ≤ 1 ∧
      ∀ timers, Executor.tick env 3 (ended.toExecutor timers) = .ok () (ended.toExecutor timers)) := by
  intro env initial first late running ended
  have isRunning : running.phase = .running "quit 3" := by decide +kernel
  have isPutting : ended.feeder.phase = .putting "x = 1" := by decide +kernel
  have isDone : ended.phase = .done := by decide +kernel
  have atFirst := run_in_step env 3 ["quit 3", "x = 1"] none (Session.start {} { host := () }) first
  have atLast := run_in_step env 3 ["quit 3", "x = 1"] none (Session.start {} { host := () }) late
  obtain ⟨within, -⟩ := atFirst
  obtain ⟨-, ahead, free, closes, -, announces, ended, -⟩ := atLast
  obtain ⟨sent, -, waiting, blocked, -⟩ := within "quit 3" isRunning
  refine ⟨⟨isRunning, sent, waiting, blocked⟩, isPutting, isDone, free "x = 1" isPutting, ?_, ahead, announces,
    closes, ended isDone⟩
  decide +kernel

end Threads

end CommandScript
