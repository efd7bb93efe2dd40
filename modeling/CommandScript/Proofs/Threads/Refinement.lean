import CommandScript.Proofs.Threads.Order

/-!
Two threads do what one would do. The session that the runner has at any moment is the one that comes
of running the given lines one after another, so when the runner is done its session is that of a
sequential run, whatever the schedule was.
-/

namespace CommandScript

variable {σ : Type}

namespace Interpreter

/-- The lines that are run when lines are run one after another until the session stops. -/
def taken (env : Env σ) (depth : Nat) : List Text → Session σ → List Text
  | [], _ => []
  | line :: rest, session =>
    if session.stopped then []
    else
      match parseLine env depth line session with
      | .ok _ after => line :: taken env depth rest after
      | .error _ _ => [line]

def asEvents (lines : List Text) : List Lines.Event := lines.map fun line => .line line 0

end Interpreter

/-- Lines that were run one after another, each by a session that had not stopped. -/
inductive Ran (env : Env σ) (depth : Nat) (start : Session σ) : List Text → Session σ → Prop where
  | none : Ran env depth start [] start
  | line (before : List Text) (session : Session σ) (line : Text) (good : Bool) (after : Session σ) :
      Ran env depth start before session → session.stopped = false →
      Interpreter.parseLine env depth line session = .ok good after →
      Ran env depth start (before ++ [line]) after

namespace Ran

open Interpreter

theorem runLogical_line (env : Env σ) (depth : Nat) (line : Text) (rest : List Text) (good answer : Bool)
    (session after : Session σ) (parsed : parseLine env depth line session = .ok answer after) :
    runLogical env depth good (asEvents (line :: rest)) session =
      if after.stopped then .ok (answer && good) after
      else runLogical env depth (answer && good) (asEvents rest) after := by
  simp only [asEvents, List.map_cons, runLogical, bind, EStateM.bind, parsed, EStateM.get_apply]
  split <;> rfl

theorem runLogical_stopped (env : Env σ) (depth : Nat) (lines : List Text) (good : Bool) (session : Session σ)
    (stopped : session.stopped = true) :
    ∃ answer, runLogical env depth good (asEvents lines) session = .ok answer session := by
  cases lines with
  | nil => exact ⟨good, rfl⟩
  | cons line rest =>
      have parsed : parseLine env depth line session = .ok false session := by
        simp only [parseLine, bind, EStateM.bind, EStateM.get_apply, stopped, if_true]
        rfl
      refine ⟨false && good, ?_⟩
      rw [runLogical_line env depth line rest good false session session parsed, if_pos stopped]

theorem runLogical_going (env : Env σ) (depth : Nat) (start : Session σ) (given : List Text) (session : Session σ)
    (ran : Ran env depth start given session) (going : session.stopped = false) (rest : List Text) (good : Bool) :
    ∃ answer, runLogical env depth good (asEvents (given ++ rest)) start =
      runLogical env depth answer (asEvents rest) session := by
  induction ran generalizing rest with
  | none => exact ⟨good, rfl⟩
  | line before session line answer after ran notStopped parsed ih =>
      obtain ⟨sofar, same⟩ := ih notStopped (line :: rest)
      refine ⟨answer && sofar, ?_⟩
      rw [List.append_assoc, List.singleton_append, same,
        runLogical_line env depth line rest sofar answer session after parsed]
      simp [going]

theorem runLogical_eq (env : Env σ) (depth : Nat) (start : Session σ) (given : List Text) (session : Session σ)
    (ran : Ran env depth start given session) (rest : List Text)
    (ends : session.stopped = true ∨ rest = []) (good : Bool) :
    ∃ answer, runLogical env depth good (asEvents (given ++ rest)) start = .ok answer session := by
  cases stopped : session.stopped with
  | false =>
      have allRun : rest = [] := ends.resolve_left (by simp [stopped])
      obtain ⟨answer, same⟩ := runLogical_going env depth start given session ran stopped rest good
      refine ⟨answer, ?_⟩
      rw [same, allRun]
      rfl
  | true =>
      cases ran with
      | none => exact runLogical_stopped env depth rest good start stopped
      | line before between line answer after ran notStopped parsed =>
          obtain ⟨sofar, same⟩ := runLogical_going env depth start before between ran notStopped (line :: rest) good
          refine ⟨answer && sofar, ?_⟩
          rw [List.append_assoc, List.singleton_append, same,
            runLogical_line env depth line rest sofar answer between session parsed, if_pos stopped]

theorem taken_append (env : Env σ) (depth : Nat) (start : Session σ) (given : List Text) (session : Session σ)
    (ran : Ran env depth start given session) (rest : List Text) :
    taken env depth (given ++ rest) start = given ++ taken env depth rest session := by
  induction ran generalizing rest with
  | none => rfl
  | line before session line answer after ran notStopped parsed ih =>
      rw [List.append_assoc, List.singleton_append, ih]
      simp [taken, notStopped, parsed]

theorem taken_eq (env : Env σ) (depth : Nat) (start : Session σ) (given : List Text) (session : Session σ)
    (ran : Ran env depth start given session) (rest : List Text)
    (ends : session.stopped = true ∨ rest = []) : taken env depth (given ++ rest) start = given := by
  rw [taken_append env depth start given session ran]
  cases rest with
  | nil => simp [taken]
  | cons line rest =>
      have stopped : session.stopped = true := ends.resolve_right (by simp)
      simp [taken, stopped]

end Ran

namespace Session

theorem closePrint_end (session : Session σ) :
    session.closePrint.stopped = session.stopped ∧ session.closePrint.exitCode = session.exitCode := by
  unfold closePrint
  split <;> exact ⟨rfl, rfl⟩

theorem closeWrite_end (session : Session σ) :
    session.closeWrite.stopped = session.stopped ∧ session.closeWrite.exitCode = session.exitCode := by
  unfold closeWrite
  split <;> exact ⟨rfl, rfl⟩

theorem closeFiles_end (session : Session σ) :
    session.closeFiles.stopped = session.stopped ∧ session.closeFiles.exitCode = session.exitCode := by
  unfold closeFiles
  rw [(closeWrite_end _).1, (closeWrite_end _).2]
  exact closePrint_end session

end Session

namespace Threads

/-- What the runner has done so far, by the place where it is. -/
def Progress (env : Env σ) (depth : Nat) (lines : List Text) (start : Session σ) (state : State σ) : Prop :=
  match state.phase with
  | .idle | .ran | .judging => Ran env depth start state.given state.session
  | .polling | .draining => Ran env depth start state.given state.session ∧ state.session.stopped = false
  | .running line =>
    ∃ before, state.given = before ++ [line] ∧ Ran env depth start before state.session ∧
      state.session.stopped = false
  | .ending | .closingFiles =>
    Ran env depth start state.given state.session ∧ (state.session.stopped = true ∨ state.given = lines)
  | .releasing | .done =>
    ∃ last, Ran env depth start state.given last ∧ (last.stopped = true ∨ state.given = lines) ∧
      state.session = last.closeFiles
  | .raising | .dead => True

theorem feederStep_frame (state : State σ) :
    state.feederStep.phase = state.phase ∧ state.feederStep.session = state.session ∧
      state.feederStep.given = state.given := by
  unfold State.feederStep
  split
  all_goals first | exact ⟨rfl, rfl, rfl⟩ | (split <;> exact ⟨rfl, rfl, rfl⟩)

theorem feederStep_progress (env : Env σ) (depth : Nat) (lines : List Text) (start : Session σ) (state : State σ)
    (before : Progress env depth lines start state) : Progress env depth lines start state.feederStep := by
  obtain ⟨phase, session, given⟩ := feederStep_frame state
  unfold Progress
  rw [phase, session, given]
  exact before

theorem runnerStep_progress (env : Env σ) (depth : Nat) (lines : List Text) (start : Session σ) (state : State σ)
    (inOrder : InOrder lines state) (before : Progress env depth lines start state) :
    Progress env depth lines start (state.runnerStep env depth) := by
  unfold Progress at before
  cases phase : state.phase with
  | idle =>
      rw [phase] at before
      have goesOn : state.stopFlag = false := by simp [inOrder.stopFlag, phase, RunnerPhase.isEnding]
      cases stopped : state.session.stopped with
      | true => simpa [State.runnerStep, phase, Progress, goesOn, stopped] using before
      | false => simpa [State.runnerStep, phase, Progress, goesOn, stopped] using before
  | polling =>
      rw [phase] at before
      cases pending : state.handoff.line with
      | none => simpa [State.runnerStep, phase, Progress, Handoff.poll, pending] using before
      | some line => simpa [State.runnerStep, phase, Progress, Handoff.poll, pending] using before
  | draining =>
      rw [phase] at before
      cases drained : state.handoff.drained with
      | false => simpa [State.runnerStep, phase, Progress, drained] using before.1
      | true =>
          -- the feeder is over and the hand-off is empty, so nothing is left
          have goesOn : state.stopFlag = false := by simp [inOrder.stopFlag, phase, RunnerPhase.isEnding]
          simp only [Handoff.drained, Bool.and_eq_true, Option.isNone_iff_eq_none] at drained
          have ended := inOrder.closed drained.1
          have nothing := inOrder.wholeRead goesOn (by simp [ended, FeederPhase.isOver])
          have all : state.given = lines := by
            simpa [drained.2, nothing] using inOrder.whole goesOn
          simp only [State.runnerStep, phase, Progress, Handoff.drained, drained, Option.isNone_none, Bool.and_true,
            if_true]
          exact ⟨before.1, .inr all⟩
  | running line =>
      rw [phase] at before
      obtain ⟨earlier, given, ran, notStopped⟩ := before
      cases parsed : Interpreter.parseLine env depth line state.session with
      | ok good session =>
          simp only [State.runnerStep, phase, Progress, parsed, given]
          exact .line earlier state.session line good session ran notStopped parsed
      | error exit session => simp [State.runnerStep, phase, Progress, parsed]
  | ran =>
      rw [phase] at before
      simpa [State.runnerStep, phase, Progress] using before
  | judging =>
      rw [phase] at before
      cases stopped : state.session.stopped with
      | true => simpa [State.runnerStep, phase, Progress, stopped] using before
      | false => simpa [State.runnerStep, phase, Progress, stopped] using before
  | ending =>
      rw [phase] at before
      have unfinished : state.finished = false := by simp [inOrder.finished, phase, RunnerPhase.isEnding]
      simpa [State.runnerStep, phase, Progress, unfinished] using before
  | closingFiles =>
      rw [phase] at before
      simp only [State.runnerStep, phase, Progress]
      exact ⟨state.session, before.1, before.2, rfl⟩
  | releasing =>
      rw [phase] at before
      simpa [State.runnerStep, phase, Progress] using before
  | done =>
      rw [phase] at before
      simpa [State.runnerStep, phase, Progress] using before
  | raising => simp [State.runnerStep, phase, Progress]
  | dead => simp [State.runnerStep, phase, Progress]

theorem initial_inOrder (directives : List Text) (physical : Option (List Text)) (start : Session σ) :
    InOrder (sessionLines directives physical) (State.initial directives physical start) := by
  refine ⟨List.nil_prefix, ?_, ?_, ?_, ?_, ?_, rfl, rfl⟩
  · intro _
    rfl
  · intro _
    rfl
  · simp [State.initial, FeederPhase.isOver]
  · simp [State.initial]
  · simp [State.initial]

theorem run_keeps (env : Env σ) (depth : Nat) (lines : List Text) (start : Session σ) (schedule : List Thread)
    (state : State σ) (inOrder : InOrder lines state) (progress : Progress env depth lines start state) :
    InOrder lines (state.run env depth schedule) ∧
      Progress env depth lines start (state.run env depth schedule) := by
  induction schedule generalizing state with
  | nil => exact ⟨inOrder, progress⟩
  | cons thread rest ih =>
      cases thread with
      | feeder =>
          exact ih _ (feederStep_inOrder lines state inOrder) (feederStep_progress env depth lines start state progress)
      | runner =>
          exact ih _ (runnerStep_inOrder env depth lines state inOrder)
            (runnerStep_progress env depth lines start state inOrder progress)

/-- Where the runner is done, its lines and its session are those of a sequential run. -/
theorem done_sequential (env : Env σ) (depth : Nat) (lines : List Text) (start : Session σ) (state : State σ)
    (inOrder : InOrder lines state) (progress : Progress env depth lines start state)
    (done : state.phase = .done) :
    ∃ last good, Interpreter.runLogical env depth true (Interpreter.asEvents lines) start = .ok good last ∧
      state.given = Interpreter.taken env depth lines start ∧
      (last.stopped = true ∨ state.given = lines) ∧ state.session = last.closeFiles := by
  simp only [Progress, done] at progress
  obtain ⟨last, ran, ends, closed⟩ := progress
  obtain ⟨rest, whole⟩ := inOrder.begins
  have finished : last.stopped = true ∨ rest = [] := by
    rcases ends with stopped | all
    · exact .inl stopped
    · right
      rw [all] at whole
      simpa using whole
  obtain ⟨good, same⟩ := ran.runLogical_eq env depth start _ last rest finished true
  refine ⟨last, good, ?_, ?_, ends, closed⟩
  · rw [← whole]
    exact same
  · rw [← whole, ran.taken_eq env depth start _ last rest finished]

end Threads

namespace Interpreter

theorem texts_feed (directives : List Text) (input : Option Text) :
    Lines.texts (feed directives input) = Threads.sessionLines directives (input.map Lines.ofStream) := by
  have directly : Lines.texts (directives.map fun line => .line line 0) = directives := by
    induction directives with
    | nil => rfl
    | cons line rest ih => simpa [Lines.texts, Lines.logical] using ih
  cases input with
  | none => simp only [feed, Lines.texts_append, directly]; rfl
  | some text => simp only [feed, Lines.texts_append, directly]; rfl

theorem runLogical_texts (env : Env σ) (depth : Nat) (events : List Lines.Event) (quiet : .warning ∉ events)
    (good : Bool) (session : Session σ) :
    runLogical env depth good events session =
      runLogical env depth good (asEvents (Lines.texts events)) session := by
  induction events generalizing good session with
  | nil => rfl
  | cons event rest ih =>
      have later : .warning ∉ rest := fun found => quiet (List.mem_cons_of_mem _ found)
      cases event with
      | asked within => exact ih later good session
      | warning => exact absurd List.mem_cons_self quiet
      | line text number =>
          simp only [runLogical, Lines.texts, Lines.logical, asEvents, List.filterMap_cons, List.map_cons, bind,
            EStateM.bind]
          cases parseLine env depth text session with
          | error exit after => rfl
          | ok answer after =>
              simp only [EStateM.get_apply]
              split
              · rfl
              · exact ih later _ after

/-- A session whose input gives no warning ends, however its threads are scheduled, as it does when it
is run by one. -/
theorem runSession_of_done (env : Env σ) (depth : Nat) (directives : List Text) (input : Option Text)
    (start : Session σ) (schedule : List Threads.Thread) (quiet : .warning ∉ feed directives input) :
    let state := (Threads.State.initial directives (input.map Lines.ofStream) start).run (pausing env) depth schedule
    state.phase = .done → runSession env depth directives input start = .ok () state.session := by
  intro state done
  obtain ⟨inOrder, progress⟩ := Threads.run_keeps (pausing env) depth _ start schedule _
    (Threads.initial_inOrder directives (input.map Lines.ofStream) start) Ran.none
  obtain ⟨last, good, same, _, _, closed⟩ :=
    Threads.done_sequential (pausing env) depth _ start state inOrder progress done
  simp only [runSession, bind, EStateM.bind, runLogical_texts _ _ _ quiet, texts_feed, same, closed]
  rfl

end Interpreter

namespace Threads

/-- For every schedule: the lines given to the session are at every moment a beginning of its lines, and
once the runner is done they are those that a sequential run takes, all of them or those up to the one
that stopped the session. The session is then the one that the sequential run leaves, with its files
closed; and it is the one that runSession leaves, if the input gives no warning. -/
theorem run_refines_sequential (env : Env σ) (depth : Nat) (directives : List Text)
    (physical : Option (List Text)) (start : Session σ) (schedule : List Thread) :
    let lines := sessionLines directives physical
    let state := (State.initial directives physical start).run env depth schedule
    state.given <+: lines ∧
      (state.phase = .done →
        state.given = Interpreter.taken env depth lines start ∧
        (state.given = lines ∨ state.session.stopped = true) ∧
        ∃ good after, Interpreter.runLogical env depth true (Interpreter.asEvents lines) start = .ok good after ∧
          state.session = after.closeFiles ∧ state.session.exitCode = after.exitCode ∧
          ∀ (plain : Env σ) (input : Option Text), env = Interpreter.pausing plain →
            physical = input.map Lines.ofStream → .warning ∉ Interpreter.feed directives input →
            Interpreter.runSession plain depth directives input start = .ok () state.session) := by
  intro lines state
  obtain ⟨inOrder, progress⟩ := run_keeps env depth lines start schedule _
    (initial_inOrder directives physical start) Ran.none
  refine ⟨inOrder.begins, ?_⟩
  intro done
  obtain ⟨last, good, same, taken, ends, closed⟩ :=
    done_sequential env depth lines start state inOrder progress done
  refine ⟨taken, ?_, good, last, same, closed, ?_, ?_⟩
  · rcases ends with stopped | all
    · right
      rw [closed, last.closeFiles_end.1]
      exact stopped
    · exact .inl all
  · rw [closed, last.closeFiles_end.2]
  · rintro plain input rfl rfl quiet
    exact Interpreter.runSession_of_done plain depth directives input start schedule quiet done

def roundRobin (rounds : Nat) : List Thread := (List.replicate rounds [.feeder, .runner]).flatten

theorem aliased_quit_refines_sequential :
    let physical : Option (List Text) := some ["go \\", " # and leave", "x = 5"]
    let start := Session.start {} ()
    let lines := sessionLines ["alias go=quit"] physical
    let state := (State.initial ["alias go=quit"] physical start).run {} 3 (roundRobin 30)
    (state.phase = .done ∧ lines.length = 3 ∧ state.given.length = 2) ∧ state.given <+: lines ∧
      state.given = Interpreter.taken {} 3 lines start ∧
      (state.given = lines ∨ state.session.stopped = true) ∧
      ∃ good after, Interpreter.runLogical {} 3 true (Interpreter.asEvents lines) start = .ok good after ∧
        state.session = after.closeFiles ∧ state.session.exitCode = after.exitCode := by
  dsimp only
  have refines := run_refines_sequential {} 3 ["alias go=quit"] (some ["go \\", " # and leave", "x = 5"])
    (Session.start {} ()) (roundRobin 30)
  obtain ⟨taken, ends, good, after, same, closed, code, -⟩ := refines.2 (by decide +kernel)
  exact ⟨by decide +kernel, refines.1, taken, ends, good, after, same, closed, code⟩

end Threads

end CommandScript
