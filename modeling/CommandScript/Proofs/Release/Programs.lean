import CommandScript.Proofs.Release.Ledger

/-!
What programs do to the loops. Most leave them alone; the others are tidy: they leave alone what is
below them on the stack, and keep the history of every loop in order.
-/

namespace CommandScript

variable {σ α β : Type}

def Tidy (before after : Session σ) : Prop := ∀ floor, Ready floor before → Moves floor before after

structure Steps (Rel : Session σ → Session σ → Prop) : Prop where
  still {before after} : Still before after → Rel before after
  trans {first second third} : Rel first second → Rel second third → Rel first third

theorem Still.steps : Steps (Still : Session σ → Session σ → Prop) := ⟨id, Still.trans⟩

theorem Tidy.steps : Steps (Tidy : Session σ → Session σ → Prop) where
  still kept _ ready := kept.moves ready
  trans one two floor ready := (one floor ready).trans (two floor (one floor ready).ready)

def Sweeping (before after : Session σ) : Prop := Ready [] before → Moves [] before after

theorem Sweeping.steps : Steps (Sweeping : Session σ → Session σ → Prop) where
  still kept ready := kept.moves ready
  trans one two ready := (one ready).trans (two (one ready).ready)

def Restoring (before after : Session σ) : Prop :=
  Tidy before after ∧ (before.Sound → after.frame.loops = before.frame.loops)

theorem Restoring.steps : Steps (Restoring : Session σ → Session σ → Prop) where
  still kept := ⟨Tidy.steps.still kept, fun _ => kept.loops⟩
  trans := by
    intro first second third one two
    refine ⟨Tidy.steps.trans one.1 two.1, fun sound => ?_⟩
    rw [two.2 (one.1 [] (.bottom sound)).ready.sound, one.2 sound]

theorem Tidy.sweeping {before after : Session σ} (tidy : Tidy before after) : Sweeping before after := tidy []

namespace Run

def Takes (Rel : Session σ → Session σ → Prop) (program : Run σ α) : Prop :=
  ∀ session, Rel session (program.leaves session)

theorem leaves_bind (program : Run σ α) (next : α → Run σ β) (session : Session σ) :
    (program >>= next).leaves session =
      match program session with
      | .ok value after => (next value).leaves after
      | .error _ after => after := by
  change leaves (EStateM.bind program next) session = _
  unfold leaves EStateM.bind
  cases program session <;> rfl

theorem leaves_attempt (program : Run σ α) (session : Session σ) :
    (Run.attempt program).leaves session = program.leaves session := by
  unfold leaves Run.attempt
  cases program session <;> rfl

theorem leaves_resumed (after : Run σ Unit) (result : Except Exit α) (session : Session σ) :
    (do
      after
      match result with
      | .ok value => return value
      | .error exit => throw exit : Run σ α).leaves session = after.leaves session := by
  rw [leaves_bind]
  unfold leaves
  cases after session with
  | ok value last => cases result <;> rfl
  | error exit last => rfl

theorem leaves_always (program : Run σ α) (after : Run σ Unit) (session : Session σ) :
    (Run.always program after).leaves session = after.leaves (program.leaves session) := by
  unfold Run.always
  rw [leaves_bind]
  cases ran : program session with
  | ok value last =>
      have attempted : Run.attempt program session = .ok (.ok value) last := by simp only [Run.attempt, ran]
      have left : program.leaves session = last := by simp only [leaves, ran]
      rw [attempted, left]
      exact leaves_resumed after (.ok value) last
  | error exit last =>
      have attempted : Run.attempt program session = .ok (.error exit) last := by simp only [Run.attempt, ran]
      have left : program.leaves session = last := by simp only [leaves, ran]
      rw [attempted, left]
      exact leaves_resumed after (.error exit) last

theorem ofExcept_stays {ε : Type} {wrap : ε → Exit} {result : Except ε α} {session after : Session σ} {value : α}
    (ran : (Run.ofExcept wrap result : Run σ α) session = .ok value after) : after = session := by
  cases result with
  | ok value =>
      cases ran
      rfl
  | error error => cases ran

namespace Takes

variable {Rel : Session σ → Session σ → Prop}

theorem pure (steps : Steps Rel) (value : α) : Takes Rel (pure value : Run σ α) :=
  fun session => steps.still (.refl session)

theorem throw (steps : Steps Rel) (exit : Exit) : Takes Rel (throw exit : Run σ α) :=
  fun session => steps.still (.refl session)

theorem fail (steps : Steps Rel) (cause : Cause) : Takes Rel (Run.fail cause : Run σ α) := throw steps _

theorem ended {program : Run σ α} {session after : Session σ} {value : α} (takes : Takes Rel program)
    (ran : program session = .ok value after) : Rel session after := by
  have leads := takes session
  rwa [leaves, ran] at leads

theorem weaken {Other : Session σ → Session σ → Prop} {program : Run σ α} (takes : Takes Rel program)
    (weaker : ∀ {before after}, Rel before after → Other before after) : Takes Other program :=
  fun session => weaker (takes session)

theorem bindAt (steps : Steps Rel) {program : Run σ α} {next : α → Run σ β} {start session : Session σ}
    (first : Rel start (program.leaves session))
    (second : ∀ value after, program session = .ok value after → Rel after ((next value).leaves after)) :
    Rel start ((program >>= next).leaves session) := by
  rw [leaves_bind]
  unfold leaves at first
  cases ran : program session with
  | ok value after =>
      rw [ran] at first
      exact steps.trans first (second value after ran)
  | error exit after =>
      rw [ran] at first
      exact first

theorem bind (steps : Steps Rel) {program : Run σ α} {next : α → Run σ β} (first : Takes Rel program)
    (second : ∀ value, Takes Rel (next value)) : Takes Rel (program >>= next) :=
  fun session => bindAt steps (first session) fun value after _ => second value after

theorem read {next : Session σ → Run σ β} (second : ∀ session, Rel session ((next session).leaves session)) :
    Takes Rel (get >>= next) := second

theorem change {f : Session σ → Session σ} (step : ∀ session, Rel session (f session)) :
    Takes Rel (modify f : Run σ Unit) := step

theorem ofExcept (steps : Steps Rel) {ε : Type} (wrap : ε → Exit) (result : Except ε α) :
    Takes Rel (Run.ofExcept wrap result : Run σ α) := by
  cases result with
  | ok value => exact pure steps value
  | error error => exact throw steps (wrap error)

theorem attempt {program : Run σ α} (inner : Takes Rel program) : Takes Rel (Run.attempt program) := by
  intro session
  rw [leaves_attempt]
  exact inner session

theorem onError (steps : Steps Rel) {program : Run σ α} {handler : ScriptError → Run σ α} (inner : Takes Rel program)
    (handled : ∀ error, Takes Rel (handler error)) : Takes Rel (Run.onError program handler) := by
  refine bind steps (attempt inner) fun result => ?_
  split
  · exact pure steps _
  · exact handled _
  · exact throw steps _

theorem onErrorAt (steps : Steps Rel) {program : Run σ α} {handler : ScriptError → Run σ α}
    {start session : Session σ} (inner : Rel start (program.leaves session))
    (handled : ∀ error, Takes Rel (handler error)) : Rel start ((Run.onError program handler).leaves session) := by
  unfold Run.onError
  rw [leaves_bind, Run.attempt]
  unfold Run.leaves at inner
  cases ran : program session with
  | ok value after =>
      rw [ran] at inner
      exact inner
  | error exit after =>
      rw [ran] at inner
      cases exit with
      | error error => exact steps.trans inner (handled error after)
      | returned => exact inner
      | stopped code => exact inner
      | fault fault => exact inner
      | exhausted => exact inner

theorem caught (steps : Steps Rel) {program : Run σ α} (inner : Takes Rel program) :
    Takes Rel (Run.caught program) := by
  refine bind steps (attempt inner) fun result => ?_
  split
  · exact pure steps _
  · exact pure steps _
  · exact throw steps _

theorem forM (steps : Steps Rel) {items : List β} {program : β → Run σ PUnit}
    (each : ∀ item, Takes Rel (program item)) : Takes Rel (items.forM program) := by
  induction items with
  | nil => exact pure steps _
  | cons item rest ih => exact bind steps (each item) fun _ => ih

theorem always (steps : Steps Rel) {program : Run σ α} {after : Run σ Unit} (first : Takes Rel program)
    (second : Takes Rel after) : Takes Rel (Run.always program after) := by
  refine bind steps (attempt first) fun result => bind steps second fun _ => ?_
  cases result with
  | ok value => exact pure steps value
  | error exit => exact throw steps exit

theorem deeper (steps : Steps Rel) {calls : Nat} {program : Run σ α} (inner : Takes Rel program) :
    Takes Rel (Run.deeper calls program) := by
  have sets (depth : Nat) : Takes Rel (modify ({ · with depth }) : Run σ Unit) :=
    change fun _ => steps.still ⟨rfl, rfl, rfl, rfl⟩
  refine read fun session => ?_
  extract_lets depth next
  have goesOn : Takes Rel (next ()) := bind steps (sets _) fun _ => always steps inner (sets _)
  split
  · exact bind steps (throw steps _) (fun _ => goesOn) session
  · exact goesOn session

theorem modifyFrame (steps : Steps Rel) {f : Frame → Frame} (kept : ∀ frame, (f frame).loops = frame.loops) :
    Takes Rel (Run.modifyFrame f : Run σ Unit) :=
  change fun session => steps.still ⟨kept session.frame, rfl, rfl, rfl⟩

end Takes

end Run

def Held (reference left right : Session σ) : Prop := left = right ∧ Still reference left

theorem Held.traceable (reference : Session σ) : Traceable (Held reference) :=
  SameWith.traceable fun _ _ still frame callers loopCount history =>
    still.trans ⟨congrArg (·.loops) frame, callers, loopCount, history⟩

/-- A program that cannot tell apart sessions with the same loops leaves the loops alone. -/
theorem Run.Takes.respecting {Rel : Session σ → Session σ → Prop} (steps : Steps Rel) {program : Run σ α}
    (respects : ∀ reference, Run.Respects (Held reference) program) : Run.Takes Rel program := by
  intro session
  have linked := @respects session session session ⟨rfl, .refl session⟩
  refine steps.still ?_
  unfold Run.leaves
  generalize program session = result at linked ⊢
  cases linked with
  | ok held => exact held.2
  | error held => exact held.2

end CommandScript
