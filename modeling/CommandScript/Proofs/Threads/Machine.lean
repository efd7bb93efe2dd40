import CommandScript.Proofs.Unfolding
import CommandScript.Schedule.Executor

/-!
A session with two threads: a feeder that reads lines and hands them over, and a runner that takes
them from the hand-off and runs them. Each thread moves in atomic steps; a schedule says whose turn it
is. A thread that is blocked or has ended stays where it is when its turn comes.
-/

namespace CommandScript

theorem Handoff.poll_none (handoff : Handoff) (empty : handoff.line = none) : handoff.poll = (none, handoff) := by
  cases handoff
  simp_all [Handoff.poll]

theorem Handoff.poll_some (handoff : Handoff) (line : Text) (pending : handoff.line = some line) :
    handoff.poll = (some line, { handoff with line := none }) := by
  simp [Handoff.poll, pending]

namespace Threads

inductive FeederPhase where
  /-- Between two lines, about to look at the stop flag. -/
  | choosing
  | reading (part : Option Lines.Open)
  /-- A line of the input is complete; the stop flag is looked at once more. -/
  | checking (line : Text)
  | sending (line : Text)
  | putting (line : Text)
  /-- Blocked until the line it has put is released. -/
  | waiting
  | closing
  | ended
  deriving DecidableEq, Repr

structure Feeder where
  phase : FeederPhase := .choosing
  /-- Directives that have not been sent. -/
  directives : List Text
  /-- Physical lines that have not been read; a session without input has none. -/
  physical : Option (List Text)
  number : Nat := 0
  sent : Nat := 0
  warnings : List Text := []
  deriving DecidableEq, Repr

namespace Feeder

def choose (stop : Bool) (feeder : Feeder) : Feeder :=
  if stop then { feeder with phase := .closing }
  else
    match feeder.directives, feeder.physical with
    | directive :: rest, _ => { feeder with phase := .sending directive, directives := rest }
    | [], some _ => { feeder with phase := .reading none }
    | [], none => { feeder with phase := .closing }

def complete (part : Lines.Open) (feeder : Feeder) : Feeder :=
  match Lines.deliver part.text feeder.number with
  | .line text _ :: _ => { feeder with phase := .checking text }
  | _ => { feeder with phase := .reading none }

def read (part : Option Lines.Open) (feeder : Feeder) : Feeder :=
  match feeder.physical.getD [], part with
  | [], none => { feeder with phase := .closing }
  | [], some part => feeder.complete part
  | raw :: rest, part =>
    let (part, follows, warns) := Lines.extend part raw
    let feeder :=
      { feeder with
        physical := some rest
        number := feeder.number + 1
        warnings := if warns then feeder.warnings ++ [Lines.warningText] else feeder.warnings }
    if follows then { feeder with phase := .reading (some part) } else feeder.complete part

end Feeder

inductive RunnerPhase where
  | idle
  | polling
  /-- No line was there; it remains to be seen whether one can still come. -/
  | draining
  | running (line : Text)
  /-- The line has been run, but the feeder does not know yet. -/
  | ran
  | judging
  | ending
  | closingFiles
  | releasing
  | done
  /-- The line has left with a fault, but the feeder does not know yet. -/
  | raising
  | dead
  deriving DecidableEq, Repr

structure State (σ : Type) where
  feeder : Feeder
  phase : RunnerPhase := .idle
  handoff : Handoff := {}
  /-- How often the feeder may still pass its wait. -/
  permits : Nat := 0
  stopFlag : Bool := false
  session : Session σ
  /-- The lines given to the session, in order; the last one may still be running. -/
  given : List Text := []
  linesRun : Nat := 0
  finished : Bool := false
  announced : Nat := 0

inductive Thread where
  | feeder
  | runner
  deriving DecidableEq, Repr

namespace State

variable {σ : Type}

def initial (directives : List Text) (physical : Option (List Text)) (session : Session σ) : State σ where
  feeder := { directives, physical }
  session := session

def feederStep (state : State σ) : State σ :=
  match state.feeder.phase with
  | .choosing => { state with feeder := state.feeder.choose state.stopFlag }
  | .reading part => { state with feeder := state.feeder.read part }
  | .checking line =>
    { state with feeder := { state.feeder with phase := if state.stopFlag then .closing else .sending line } }
  | .sending line =>
    { state with feeder := { state.feeder with phase := .putting line, sent := state.feeder.sent + 1 } }
  | .putting line =>
    { state with
      handoff := state.handoff.put line
      feeder := { state.feeder with phase := .waiting } }
  | .waiting =>
    match state.permits with
    | 0 => state
    | permits + 1 => { state with permits, feeder := { state.feeder with phase := .choosing } }
  | .closing =>
    { state with
      handoff := { state.handoff with closed := true }
      feeder := { state.feeder with phase := .ended } }
  | .ended => state

def runnerStep (env : Env σ) (depth : Nat) (state : State σ) : State σ :=
  match state.phase with
  | .idle =>
    { state with phase := if state.stopFlag || state.session.stopped then .ending else .polling }
  | .polling =>
    match state.handoff.poll with
    | (none, handoff) => { state with handoff, phase := .draining }
    | (some line, handoff) => { state with handoff, phase := .running line, given := state.given ++ [line] }
  | .draining => { state with phase := if state.handoff.drained then .ending else .idle }
  | .running line =>
    match Interpreter.parseLine env depth line state.session with
    | .ok _ session => { state with session, linesRun := state.linesRun + 1, phase := .ran }
    | .error _ session => { state with session, linesRun := state.linesRun + 1, phase := .raising }
  | .ran => { state with permits := state.permits + 1, phase := .judging }
  | .judging => { state with phase := if state.session.stopped then .ending else .idle }
  | .ending =>
    if state.finished then { state with phase := .done }
    else { state with finished := true, stopFlag := true, phase := .closingFiles }
  | .closingFiles => { state with session := state.session.closeFiles, phase := .releasing }
  | .releasing =>
    { state with permits := state.permits + 1, announced := state.announced + 1, phase := .done }
  | .done => state
  | .raising => { state with permits := state.permits + 1, phase := .dead }
  | .dead => state

def step (env : Env σ) (depth : Nat) (state : State σ) : Thread → State σ
  | .feeder => state.feederStep
  | .runner => state.runnerStep env depth

def run (env : Env σ) (depth : Nat) (state : State σ) (schedule : List Thread) : State σ :=
  schedule.foldl (step env depth) state

def ofExecutor (executor : Executor σ) (feeder : Feeder) (permits : Nat) (given : List Text) :
    State (Paced σ) where
  feeder := feeder
  handoff := executor.handoff
  permits := permits
  stopFlag := executor.stopFlag
  session := executor.session
  given := given
  linesRun := executor.linesRun
  finished := executor.finished
  announced := executor.announced

def toExecutor (state : State (Paced σ)) (timers : Timers Unit) : Executor σ where
  session := { state.session with host := { state.session.host with timers } }
  handoff := state.handoff
  stopFlag := state.stopFlag
  linesRun := state.linesRun
  finished := state.finished
  announced := state.announced

theorem ofExecutor_toExecutor (state : State (Paced σ)) (idle : state.phase = .idle) :
    ofExecutor (state.toExecutor state.session.host.timers) state.feeder state.permits state.given = state := by
  simp only [ofExecutor, toExecutor, ← idle]

theorem run_append (env : Env σ) (depth : Nat) (state : State σ) (first later : List Thread) :
    state.run env depth (first ++ later) = (state.run env depth first).run env depth later :=
  List.foldl_append

end State

section Tick

variable {σ : Type}

open State

theorem shutdown_eq (executor : Executor σ) (unfinished : executor.finished = false) :
    Executor.shutdown executor = .ok ()
      { executor with
        finished := true
        stopFlag := true
        session :=
          { executor.session.closeFiles with
            host :=
              { executor.session.closeFiles.host with
                timers := { executor.session.closeFiles.host.timers with running := false } } }
        announced := executor.announced + 1 } := by
  simp only [Executor.shutdown, bind, EStateM.bind, EStateM.get_apply, unfinished]
  rfl

theorem schedule_eq (executor : Executor σ) (milliseconds : Float) :
    Executor.schedule milliseconds executor =
      .ok () { executor with
        session := { executor.session with host := executor.session.host.schedule milliseconds } } := rfl

theorem tick_stopping (env : Env (Paced σ)) (depth : Nat) (executor : Executor σ)
    (stops : (executor.stopFlag || executor.session.stopped) = true) :
    Executor.tick env depth executor = Executor.shutdown executor := by
  simp only [Executor.tick, bind, EStateM.bind, EStateM.get_apply, stops, if_true]

theorem tick_empty (env : Env (Paced σ)) (depth : Nat) (executor : Executor σ)
    (goesOn : (executor.stopFlag || executor.session.stopped) = false)
    (awake : executor.session.host.waiting = false) (empty : executor.handoff.line = none) :
    Executor.tick env depth executor =
      (if executor.handoff.closed then Executor.shutdown
        else Executor.schedule executor.session.host.period) executor := by
  simp only [Executor.tick, bind, EStateM.bind, EStateM.get_apply, goesOn, awake,
    executor.handoff.poll_none empty, EStateM.modify_apply, Handoff.drained, empty, Option.isNone_none,
    Bool.and_true, Bool.false_eq_true, if_false]

theorem tick_line (env : Env (Paced σ)) (depth : Nat) (executor : Executor σ) (line : Text)
    (goesOn : (executor.stopFlag || executor.session.stopped) = false)
    (awake : executor.session.host.waiting = false) (pending : executor.handoff.line = some line) :
    Executor.tick env depth executor =
      match Interpreter.parseLine env depth line executor.session with
      | .ok _ session =>
        (if session.stopped then Executor.shutdown else Executor.schedule 0.0)
          { executor with
            handoff := { executor.handoff with line := none }, session, linesRun := executor.linesRun + 1 }
      | .error exit session =>
        .error exit
          { executor with
            handoff := { executor.handoff with line := none }, session, linesRun := executor.linesRun + 1 } := by
  simp only [Executor.tick, bind, EStateM.bind, EStateM.get_apply, goesOn, awake,
    executor.handoff.poll_some line pending, EStateM.modify_apply,
    Executor.runLine,
    Bool.false_eq_true, if_false]
  cases Interpreter.parseLine env depth line executor.session with
  | ok good session => cases stopped : session.stopped <;> simp [stopped]
  | error exit session => rfl

-- A tick is a turn of the runner that nothing interrupts: from one idle moment to the next one, to the
-- end, or to a fault. What the threads leave out is the clock.
theorem tick_eq_run (env : Env (Paced σ)) (depth : Nat) (executor : Executor σ) (feeder : Feeder)
    (permits : Nat) (given : List Text) (unfinished : executor.finished = false)
    (awake : executor.session.host.waiting = false) :
    ∃ turns,
      let state := (ofExecutor executor feeder permits given).run env depth (List.replicate turns .runner)
      match Executor.tick env depth executor with
      | .ok () after =>
        after = state.toExecutor after.session.host.timers ∧ (state.phase = .idle ∨ state.phase = .done)
      | .error _ after => after = state.toExecutor after.session.host.timers ∧ state.phase = .dead := by
  by_cases stops : (executor.stopFlag || executor.session.stopped) = true
  · refine ⟨4, ?_⟩
    rw [tick_stopping env depth executor stops, shutdown_eq executor unfinished]
    simp [run, step, runnerStep, List.replicate, ofExecutor, toExecutor, stops, unfinished]
  · have goesOn := Bool.eq_false_iff.mpr stops
    cases pending : executor.handoff.line with
    | none =>
        rw [tick_empty env depth executor goesOn awake pending]
        by_cases closed : executor.handoff.closed = true
        · refine ⟨6, ?_⟩
          rw [if_pos closed, shutdown_eq executor unfinished]
          simp [run, step, runnerStep, List.replicate, ofExecutor, toExecutor, goesOn, unfinished,
            Handoff.poll_none, Handoff.drained, pending, closed]
        · refine ⟨3, ?_⟩
          rw [if_neg closed, schedule_eq]
          simp [run, step, runnerStep, List.replicate, ofExecutor, toExecutor, goesOn, unfinished,
            Handoff.poll_none, Handoff.drained, pending, closed, Paced.schedule]
    | some line =>
        rw [tick_line env depth executor line goesOn awake pending]
        cases parsed : Interpreter.parseLine env depth line executor.session with
        | ok good session =>
            by_cases stopped : session.stopped = true
            · refine ⟨8, ?_⟩
              simp only [if_pos stopped]
              rw [shutdown_eq]
              · simp [run, step, runnerStep, List.replicate, ofExecutor, toExecutor, goesOn, unfinished,
                  Handoff.poll, pending, parsed, stopped]
              · exact unfinished
            · refine ⟨5, ?_⟩
              simp only [if_neg stopped, schedule_eq]
              simp [run, step, runnerStep, List.replicate, ofExecutor, toExecutor, goesOn, unfinished,
                Handoff.poll, pending, parsed, stopped, Paced.schedule]
        | error exit session =>
            refine ⟨4, ?_⟩
            simp [run, step, runnerStep, List.replicate, ofExecutor, toExecutor, goesOn, unfinished,
              Handoff.poll, pending, parsed]

end Tick

end Threads

end CommandScript
