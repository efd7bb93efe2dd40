import CommandScript.Proofs.Threads.Machine

/-!
Whatever the schedule, the lines are run in order and none is lost. The feeder and the runner pass one
token between them: a line that has been put is in the hand-off, with the runner, or released. So a
line is put only when the hand-off is empty, and what has been given, what is in the hand-off and what
the feeder still has ahead are together always the lines of the session.
-/

namespace CommandScript

theorem Lines.texts_append (first second : List Lines.Event) :
    Lines.texts (first ++ second) = Lines.texts first ++ Lines.texts second := by
  simp only [Lines.texts, Lines.logical, List.filterMap_append, List.map_append]

theorem Lines.deliver_cases (text : Text) (number : Nat) :
    Lines.deliver text number = [] ∨ ∃ line, Lines.deliver text number = [.line line number] := by
  unfold Lines.deliver
  cases Lines.kept? text with
  | none => exact .inl rfl
  | some line => exact .inr ⟨line, rfl⟩

namespace Threads

def sessionLines (directives : List Text) (physical : Option (List Text)) : List Text :=
  directives ++ Lines.texts (Lines.fold (physical.getD []))

namespace FeederPhase

def held : FeederPhase → List Text
  | checking line | sending line | putting line => [line]
  | _ => []

def part : FeederPhase → Option Lines.Open
  | reading part => part
  | _ => none

def isOver : FeederPhase → Bool
  | closing | ended => true
  | _ => false

def tokens : FeederPhase → Nat
  | waiting => 1
  | _ => 0

end FeederPhase

namespace RunnerPhase

def tokens : RunnerPhase → Nat
  | running _ | ran | raising => 1
  | _ => 0

def isEnding : RunnerPhase → Bool
  | closingFiles | releasing | done => true
  | _ => false

end RunnerPhase

namespace Feeder

def ahead (feeder : Feeder) : List Text :=
  feeder.phase.held ++ feeder.directives ++
    Lines.texts (Lines.foldFrom feeder.phase.part feeder.number (feeder.physical.getD []))

theorem choose_ahead (feeder : Feeder) (choosing : feeder.phase = .choosing) :
    (feeder.choose false).ahead = feeder.ahead := by
  obtain ⟨phase, directives, physical, number, sent, warnings⟩ := feeder
  cases choosing
  cases directives with
  | cons directive rest => rfl
  | nil => cases physical <;> rfl

theorem complete_ahead (feeder : Feeder) (part : Lines.Open) (empty : feeder.directives = []) :
    (feeder.complete part).ahead =
      Lines.texts (Lines.deliver part.text feeder.number) ++
        Lines.texts (Lines.foldFrom none feeder.number (feeder.physical.getD [])) := by
  rcases Lines.deliver_cases part.text feeder.number with nothing | ⟨line, delivered⟩
  · simp [complete, nothing, ahead, FeederPhase.held, FeederPhase.part, empty, Lines.texts, Lines.logical]
  · simp [complete, delivered, ahead, FeederPhase.held, FeederPhase.part, empty, Lines.texts, Lines.logical]

theorem read_ahead (feeder : Feeder) (part : Option Lines.Open) (reading : feeder.phase = .reading part)
    (empty : feeder.directives = []) : (feeder.read part).ahead = feeder.ahead := by
  have now : feeder.ahead = Lines.texts (Lines.foldFrom part feeder.number (feeder.physical.getD [])) := by
    simp [ahead, reading, FeederPhase.held, FeederPhase.part, empty]
  rw [now]
  cases left : feeder.physical.getD [] with
  | nil =>
      cases part with
      | none => simp [read, left, ahead, FeederPhase.held, FeederPhase.part, empty]
      | some part =>
          simp only [read, left, complete_ahead feeder part empty, Lines.foldFrom]
          simp [Lines.texts, Lines.logical]
  | cons raw rest =>
      simp only [read, left, Lines.foldFrom]
      rcases Lines.extend part raw with ⟨after, follows, warns⟩
      cases follows with
      | true => cases warns <;> simp [ahead, FeederPhase.held, FeederPhase.part, empty, Lines.texts, Lines.logical]
      | false =>
          rw [if_neg Bool.false_ne_true, complete_ahead]
          · cases warns <;> simp [Lines.texts, Lines.logical]
          · exact empty

theorem complete_shape (feeder : Feeder) (part : Lines.Open) :
    (feeder.complete part).directives = feeder.directives ∧
      (feeder.complete part).phase.tokens = 0 ∧ (feeder.complete part).phase.isOver = false := by
  unfold complete
  split <;> exact ⟨rfl, rfl, rfl⟩

theorem read_shape (feeder : Feeder) (part : Option Lines.Open) :
    (feeder.read part).directives = feeder.directives ∧ (feeder.read part).phase.tokens = 0 ∧
      ((feeder.read part).phase.isOver = true → feeder.physical.getD [] = [] ∧ part = none) := by
  cases left : feeder.physical.getD [] with
  | nil =>
      cases part with
      | none => simp [read, left, FeederPhase.tokens]
      | some part => simp [read, left, complete_shape]
  | cons raw rest =>
      simp only [read, left]
      rcases Lines.extend part raw with ⟨after, follows, warns⟩
      cases follows with
      | true => simp [FeederPhase.tokens, FeederPhase.isOver]
      | false => simp [complete_shape]

theorem choose_shape (feeder : Feeder) (stop : Bool) :
    (feeder.choose stop).phase.tokens = 0 ∧
      (∀ part, (feeder.choose stop).phase = .reading part → (feeder.choose stop).directives = []) ∧
      (stop = false → (feeder.choose stop).phase.isOver = true → (feeder.choose stop).ahead = []) := by
  obtain ⟨phase, directives, physical, number, sent, warnings⟩ := feeder
  cases stop with
  | true => simp [choose, FeederPhase.tokens]
  | false =>
      cases directives with
      | cons directive rest => simp [choose, FeederPhase.tokens, FeederPhase.isOver]
      | nil =>
          cases physical with
          | some lines => simp [choose, FeederPhase.tokens, FeederPhase.isOver]
          | none =>
              simp [choose, FeederPhase.tokens, ahead, FeederPhase.held, FeederPhase.part, Lines.foldFrom,
                Lines.texts, Lines.logical]

end Feeder

variable {σ : Type}

/-- What holds of the lines of a session after every step. -/
structure InOrder (lines : List Text) (state : State σ) : Prop where
  begins : state.given <+: lines
  whole : state.stopFlag = false →
    state.given ++ state.handoff.line.toList ++ state.feeder.ahead = lines
  tokens : state.stopFlag = false →
    state.handoff.line.toList.length + state.phase.tokens + state.permits = state.feeder.phase.tokens
  wholeRead : state.stopFlag = false → state.feeder.phase.isOver = true → state.feeder.ahead = []
  past_directives : ∀ part, state.feeder.phase = .reading part → state.feeder.directives = []
  closed : state.handoff.closed = true → state.feeder.phase = .ended
  stopFlag : state.stopFlag = state.phase.isEnding
  finished : state.finished = state.phase.isEnding

-- Where the feeder only moves on, with the lines and the token that it had, nothing is lost.
theorem InOrder.of_feeder (lines : List Text) (state : State σ) (before : InOrder lines state) (feeder : Feeder)
    (working : state.feeder.phase ≠ .ended)
    (ahead : state.stopFlag = false → feeder.ahead = state.feeder.ahead)
    (token : state.stopFlag = false → feeder.phase.tokens = state.feeder.phase.tokens)
    (wholeRead : state.stopFlag = false → feeder.phase.isOver = true → feeder.ahead = [])
    (past_directives : ∀ part, feeder.phase = .reading part → feeder.directives = []) :
    InOrder lines { state with feeder } := by
  obtain ⟨begins, whole, tokens, -, -, closed, stopFlag, finished⟩ := before
  refine ⟨begins, ?_, ?_, wholeRead, past_directives, ?_, stopFlag, finished⟩
  · intro goesOn
    rw [ahead goesOn]
    exact whole goesOn
  · intro goesOn
    rw [token goesOn]
    exact tokens goesOn
  · intro isClosed
    exact absurd (closed isClosed) working

section Feeder

variable {lines : List Text} {state : State σ}

theorem choosing_inOrder (before : InOrder lines state) (phase : state.feeder.phase = .choosing) :
    InOrder lines state.feederStep := by
  obtain ⟨noToken, directives, ends⟩ := state.feeder.choose_shape state.stopFlag
  simp only [State.feederStep, phase]
  apply before.of_feeder
  · simp [phase]
  · intro goesOn
    rw [goesOn, Feeder.choose_ahead _ phase]
  · intro _
    rw [noToken, phase]
    rfl
  · exact ends
  · exact directives

theorem reading_inOrder (before : InOrder lines state) {part : Option Lines.Open}
    (phase : state.feeder.phase = .reading part) : InOrder lines state.feederStep := by
  have empty := before.past_directives part phase
  have same := Feeder.read_ahead _ part phase empty
  obtain ⟨directives, noToken, ends⟩ := state.feeder.read_shape part
  simp only [State.feederStep, phase]
  apply before.of_feeder
  · simp [phase]
  · intro _
    exact same
  · intro _
    rw [noToken, phase]
    rfl
  · intro _ isOver
    obtain ⟨left, nothing⟩ := ends isOver
    rw [same]
    simp [Feeder.ahead, phase, nothing, FeederPhase.held, FeederPhase.part, empty, left, Lines.foldFrom,
      Lines.texts, Lines.logical]
  · intro _ _
    rw [directives, empty]

theorem checking_inOrder (before : InOrder lines state) {line : Text}
    (phase : state.feeder.phase = .checking line) : InOrder lines state.feederStep := by
  simp only [State.feederStep, phase]
  apply before.of_feeder
  · simp [phase]
  · intro goesOn
    simp [goesOn, Feeder.ahead, phase, FeederPhase.held, FeederPhase.part]
  · intro goesOn
    simp [goesOn, phase, FeederPhase.tokens]
  · intro goesOn
    simp [goesOn, FeederPhase.isOver]
  · intro part reads
    cases stop : state.stopFlag <;> simp [stop] at reads

theorem putting_inOrder (before : InOrder lines state) {line : Text}
    (phase : state.feeder.phase = .putting line) : InOrder lines state.feederStep := by
  obtain ⟨begins, whole, tokens, -, -, closed, stopFlag, finished⟩ := before
  simp only [State.feederStep, phase]
  refine ⟨begins, ?_, ?_, ?_, ?_, ?_, stopFlag, finished⟩
  · intro goesOn
    -- no token is out, so the line that is put replaces none
    have noToken := tokens goesOn
    simp only [phase, FeederPhase.tokens] at noToken
    have empty : state.handoff.line.toList = [] := List.eq_nil_of_length_eq_zero (by omega)
    simpa [Feeder.ahead, phase, FeederPhase.held, FeederPhase.part, Handoff.put, empty] using whole goesOn
  · intro goesOn
    have noToken := tokens goesOn
    simp only [phase, FeederPhase.tokens] at noToken
    simp only [Handoff.put, Option.toList_some, List.length_singleton, FeederPhase.tokens]
    omega
  · simp [FeederPhase.isOver]
  · simp
  · intro isClosed
    exact absurd (closed isClosed) (by simp [phase])

theorem passing_inOrder (before : InOrder lines state) {left : Nat} (phase : state.feeder.phase = .waiting)
    (permits : state.permits = left + 1) : InOrder lines state.feederStep := by
  obtain ⟨begins, whole, tokens, -, -, closed, stopFlag, finished⟩ := before
  simp only [State.feederStep, phase, permits]
  refine ⟨begins, ?_, ?_, ?_, ?_, ?_, stopFlag, finished⟩
  · intro goesOn
    simpa [Feeder.ahead, phase, FeederPhase.held, FeederPhase.part] using whole goesOn
  · intro goesOn
    have oneToken := tokens goesOn
    rw [phase, permits, FeederPhase.tokens] at oneToken
    simp only [FeederPhase.tokens]
    omega
  · simp [FeederPhase.isOver]
  · simp
  · intro isClosed
    exact absurd (closed isClosed) (by simp [phase])

theorem closing_inOrder (before : InOrder lines state) (phase : state.feeder.phase = .closing) :
    InOrder lines state.feederStep := by
  obtain ⟨begins, whole, tokens, wholeRead, -, closed, stopFlag, finished⟩ := before
  simp only [State.feederStep, phase]
  refine ⟨begins, ?_, ?_, ?_, ?_, ?_, stopFlag, finished⟩
  · intro goesOn
    simpa [Feeder.ahead, phase, FeederPhase.held, FeederPhase.part] using whole goesOn
  · intro goesOn
    simpa [phase, FeederPhase.tokens] using tokens goesOn
  · intro goesOn _
    simpa [Feeder.ahead, phase, FeederPhase.held, FeederPhase.part, FeederPhase.isOver] using
      wholeRead goesOn (by simp [phase, FeederPhase.isOver])
  · simp
  · simp

end Feeder

theorem feederStep_inOrder (lines : List Text) (state : State σ) (before : InOrder lines state) :
    InOrder lines state.feederStep := by
  cases phase : state.feeder.phase with
  | choosing => exact choosing_inOrder before phase
  | reading part => exact reading_inOrder before phase
  | checking line => exact checking_inOrder before phase
  | sending line =>
      simp only [State.feederStep, phase]
      apply before.of_feeder
      · simp [phase]
      · simp [Feeder.ahead, phase, FeederPhase.held, FeederPhase.part]
      · simp [phase, FeederPhase.tokens]
      · simp [FeederPhase.isOver]
      · simp
  | putting line => exact putting_inOrder before phase
  | waiting =>
      cases permits : state.permits with
      | zero => simpa only [State.feederStep, phase, permits] using before
      | succ left => exact passing_inOrder before phase permits
  | closing => exact closing_inOrder before phase
  | ended => simpa only [State.feederStep, phase] using before

-- Where the runner neither takes a line nor releases one, the lines are where they were.
theorem InOrder.of_phase (lines : List Text) (state : State σ) (before : InOrder lines state)
    (session : Session σ) (linesRun : Nat) (phase : RunnerPhase) (tokens : phase.tokens = state.phase.tokens)
    (ending : phase.isEnding = state.phase.isEnding) :
    InOrder lines { state with session, linesRun, phase } := by
  obtain ⟨begins, whole, balance, wholeRead, past_directives, closed, stopFlag, finished⟩ := before
  refine ⟨begins, whole, ?_, wholeRead, past_directives, closed, ?_, ?_⟩
  · rw [tokens]
    exact balance
  · rw [ending]
    exact stopFlag
  · rw [ending]
    exact finished

-- The token that the runner gives up becomes a permit of the feeder.
theorem InOrder.of_release (lines : List Text) (state : State σ) (before : InOrder lines state)
    (phase : RunnerPhase) (holds : state.phase.tokens = 1) (releases : phase.tokens = 0)
    (goesOn : state.phase.isEnding = false) (still : phase.isEnding = false) :
    InOrder lines { state with permits := state.permits + 1, phase } := by
  obtain ⟨begins, whole, balance, wholeRead, past_directives, closed, stopFlag, finished⟩ := before
  refine ⟨begins, whole, ?_, wholeRead, past_directives, closed, ?_, ?_⟩
  · intro running
    have now := balance running
    rw [holds] at now
    rw [releases]
    simp only
    omega
  · rw [still, ← goesOn]
    exact stopFlag
  · rw [still, ← goesOn]
    exact finished

theorem runnerStep_inOrder (env : Env σ) (depth : Nat) (lines : List Text) (state : State σ)
    (before : InOrder lines state) : InOrder lines (state.runnerStep env depth) := by
  have ⟨begins, whole, tokens, wholeRead, past_directives, closed, stopFlag, finished⟩ := before
  cases phase : state.phase with
  | idle =>
      simp only [State.runnerStep, phase]
      apply before.of_phase
      · split <;> simp [phase, RunnerPhase.tokens]
      · split <;> simp [phase, RunnerPhase.isEnding]
  | polling =>
      cases pending : state.handoff.line with
      | none =>
          simp only [State.runnerStep, phase, state.handoff.poll_none pending]
          apply before.of_phase <;> simp [phase, RunnerPhase.tokens, RunnerPhase.isEnding]
      | some line =>
          have goesOn : state.stopFlag = false := by simp [stopFlag, phase, RunnerPhase.isEnding]
          have now := whole goesOn
          simp only [pending, Option.toList_some] at now
          simp only [State.runnerStep, phase, state.handoff.poll_some line pending]
          refine ⟨⟨_, now⟩, ?_, ?_, wholeRead, past_directives, closed, ?_, ?_⟩
          · intro _
            simpa using now
          · intro _
            simpa [pending, phase, RunnerPhase.tokens] using tokens goesOn
          · simp [stopFlag, phase, RunnerPhase.isEnding]
          · simp [finished, phase, RunnerPhase.isEnding]
  | draining =>
      simp only [State.runnerStep, phase]
      apply before.of_phase
      · split <;> simp [phase, RunnerPhase.tokens]
      · split <;> simp [phase, RunnerPhase.isEnding]
  | running line =>
      simp only [State.runnerStep, phase]
      split
      all_goals
        apply before.of_phase
        · simp [phase, RunnerPhase.tokens]
        · simp [phase, RunnerPhase.isEnding]
  | ran =>
      simp only [State.runnerStep, phase]
      apply before.of_release <;> simp [phase, RunnerPhase.tokens, RunnerPhase.isEnding]
  | judging =>
      simp only [State.runnerStep, phase]
      apply before.of_phase
      · split <;> simp [phase, RunnerPhase.tokens]
      · split <;> simp [phase, RunnerPhase.isEnding]
  | ending =>
      have unfinished : state.finished = false := by simp [finished, phase, RunnerPhase.isEnding]
      simp only [State.runnerStep, phase, unfinished]
      refine ⟨begins, ?_, ?_, ?_, past_directives, closed, rfl, rfl⟩ <;> simp
  | closingFiles =>
      simp only [State.runnerStep, phase]
      apply before.of_phase
      · simp [phase, RunnerPhase.tokens]
      · simp [phase, RunnerPhase.isEnding]
  | releasing =>
      -- the flag is up, so the spare permit can no longer be taken for a released line
      have stops : state.stopFlag = true := by simp [stopFlag, phase, RunnerPhase.isEnding]
      simp only [State.runnerStep, phase]
      refine ⟨begins, ?_, ?_, ?_, past_directives, closed, ?_, ?_⟩
      · simp [stops]
      · simp [stops]
      · simp [stops]
      · simp [stopFlag, phase, RunnerPhase.isEnding]
      · simp [finished, phase, RunnerPhase.isEnding]
  | done => simpa only [State.runnerStep, phase] using before
  | raising =>
      simp only [State.runnerStep, phase]
      apply before.of_release <;> simp [phase, RunnerPhase.tokens, RunnerPhase.isEnding]
  | dead => simpa only [State.runnerStep, phase] using before

end Threads

end CommandScript
