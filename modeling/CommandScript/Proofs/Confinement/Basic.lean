import CommandScript.Proofs.Unfolding

/-! What a program cannot reach. A running script works on its own frame and on the innermost scope; the scripts that
wait for it and the scopes around are its surroundings. A program is confined if it leaves its surroundings as they
are, however it ends, and leaves only by exits of a given kind. Evaluation and plain commands reach even less: they keep
every invariant that bears changes within the running script and the requests that a script can make to the host. -/

namespace CommandScript

variable {σ α β : Type}

def Fault.isConversion : Fault → Bool
  | infiniteInteger | nanInteger | integerTooLarge | dateRange | yearZero | separator | digits | half => true
  | _ => false

/-- A kind of exits by which expressions may leave: script errors, the bound on nesting, and faults of conversions. -/
class Exit.Evaluating (leaves : Exit → Prop) : Prop where
  error (error : ScriptError) : leaves (.error error)
  exhausted : leaves .exhausted
  conversion (fault : Fault) : fault.isConversion = true → leaves (.fault fault)

/-- A kind of exits by which commands may leave: the same, and any other fault. -/
class Exit.Plain (leaves : Exit → Prop) : Prop extends Evaluating leaves where
  fault (fault : Fault) : leaves (.fault fault)

namespace Run

/-- The end of a program: an invariant holds, and an exit is of a kind. -/
inductive Kept (Inv : Session σ → Prop) (leaves : Exit → Prop) : EStateM.Result Exit (Session σ) α → Prop
  | ok {value : α} {after : Session σ} : Inv after → Kept Inv leaves (.ok value after)
  | error {exit : Exit} {after : Session σ} : Inv after → leaves exit → Kept Inv leaves (.error exit after)

/-- A program keeps an invariant, however it ends, and leaves by exits of a kind. -/
def Keeps (Inv : Session σ → Prop) (leaves : Exit → Prop) (program : Run σ α) : Prop :=
  ∀ ⦃session⦄, Inv session → Kept Inv leaves (program session)

namespace Keeps

variable {Inv : Session σ → Prop} {leaves other : Exit → Prop}

theorem pure (value : α) : Keeps Inv leaves (pure value : Run σ α) := fun _ holds => .ok holds

theorem throw {exit : Exit} (kind : leaves exit) : Keeps Inv leaves (throw exit : Run σ α) :=
  fun _ holds => .error holds kind

theorem bindEnded {program : Run σ α} {next : α → Run σ β} (first : Keeps Inv leaves program)
    (second : ∀ session after value, program session = .ok value after → Keeps Inv leaves (next value)) :
    Keeps Inv leaves (program >>= next) := by
  intro session holds
  change Kept Inv leaves (EStateM.bind program next session)
  unfold EStateM.bind
  have kept := first holds
  cases ran : program session with
  | ok value after =>
      rw [ran] at kept
      cases kept with
      | ok still => exact second session after value ran still
  | error exit after =>
      rw [ran] at kept
      cases kept with
      | error still kind => exact .error still kind

theorem bind {program : Run σ α} {next : α → Run σ β} (first : Keeps Inv leaves program)
    (second : ∀ value, Keeps Inv leaves (next value)) : Keeps Inv leaves (program >>= next) :=
  bindEnded first fun _ _ value _ => second value

theorem mono {program : Run σ α} (keeps : Keeps Inv leaves program) (weaker : ∀ exit, leaves exit → other exit) :
    Keeps Inv other program := by
  intro session holds
  have kept := keeps holds
  generalize program session = result at kept ⊢
  cases kept with
  | ok still => exact .ok still
  | error still kind => exact .error still (weaker _ kind)

theorem read {next : Session σ → Run σ β} (second : ∀ session, Keeps Inv leaves (next session)) :
    Keeps Inv leaves (get >>= next) := fun session holds => second session holds

theorem change {f : Session σ → Session σ} (kept : ∀ session, Inv session → Inv (f session)) :
    Keeps Inv leaves (modify f : Run σ Unit) := fun session holds => .ok (kept session holds)

theorem and {Other : Session σ → Prop} {program : Run σ α} (one : Keeps Inv leaves program)
    (two : Keeps Other leaves program) : Keeps (fun session => Inv session ∧ Other session) leaves program := by
  rintro session ⟨holds, also⟩
  have kept := one holds
  have keptToo := two also
  generalize program session = result at kept keptToo ⊢
  cases kept with
  | ok still =>
      cases keptToo with
      | ok stillToo => exact .ok ⟨still, stillToo⟩
  | error still kind =>
      cases keptToo with
      | error stillToo _ => exact .error ⟨still, stillToo⟩ kind

theorem attempt_bind {program : Run σ α} {next : Except Exit α → Run σ β} (inner : Keeps Inv leaves program)
    (ended : ∀ value, Keeps Inv other (next (.ok value)))
    (left : ∀ exit, leaves exit → Keeps Inv other (next (.error exit))) :
    Keeps Inv other (Run.attempt program >>= next) := by
  intro session holds
  change Kept Inv other (EStateM.bind (Run.attempt program) next session)
  unfold EStateM.bind Run.attempt
  have kept := inner holds
  cases ran : program session with
  | ok value after =>
      rw [ran] at kept
      cases kept with
      | ok still => exact ended value still
  | error exit after =>
      rw [ran] at kept
      cases kept with
      | error still kind => exact left exit kind still

theorem always {program : Run σ α} {after : Run σ Unit} (first : Keeps Inv leaves program)
    (second : Keeps Inv leaves after) : Keeps Inv leaves (Run.always program after) :=
  attempt_bind first (fun value => bind second fun _ => pure value) fun _ kind => bind second fun _ => throw kind

theorem caught {program : Run σ α} (inner : Keeps Inv leaves program) : Keeps Inv leaves (Run.caught program) := by
  refine attempt_bind inner (fun value => pure _) fun exit kind => ?_
  cases exit with
  | error error => exact pure _
  | _ => exact throw kind

theorem onError {program : Run σ α} {handler : ScriptError → Run σ α} (inner : Keeps Inv leaves program)
    (handled : ∀ error, Keeps Inv other (handler error))
    (passes : ∀ exit, leaves exit → (∀ error, exit ≠ .error error) → other exit) :
    Keeps Inv other (Run.onError program handler) := by
  refine attempt_bind inner (fun value => pure _) fun exit kind => ?_
  cases exit with
  | error error => exact handled error
  | _ => exact throw (passes _ kind nofun)

theorem forM {items : List β} {program : β → Run σ PUnit} (each : ∀ item, Keeps Inv leaves (program item)) :
    Keeps Inv leaves (items.forM program) := by
  induction items with
  | nil => exact pure _
  | cons item rest ih => exact bind (each item) fun _ => ih

theorem ofExcept {ε : Type} {wrap : ε → Exit} (kind : ∀ error, leaves (wrap error)) (result : Except ε α) :
    Keeps Inv leaves (Run.ofExcept wrap result : Run σ α) := by
  cases result with
  | ok value => exact pure value
  | error error => exact throw (kind error)

theorem check (refused : Prop) [Decidable refused] {exit : Exit} (kind : leaves exit) {next : Run σ α}
    (goesOn : Keeps Inv leaves next) :
    Keeps Inv leaves (if refused then (do let _ ← (MonadExcept.throw exit : Run σ PUnit); next) else next) := by
  split
  · exact bind (throw kind) fun _ => goesOn
  · exact goesOn

section

variable [evaluating : Exit.Evaluating leaves]

theorem fail (cause : Cause) : Keeps Inv leaves (Run.fail cause : Run σ α) := throw (evaluating.error _)

theorem guard (refused : Prop) [Decidable refused] (cause : Cause) {next : Run σ α}
    (goesOn : Keeps Inv leaves next) :
    Keeps Inv leaves (if refused then (do let _ ← (Run.fail cause : Run σ PUnit); next) else next) :=
  check refused (evaluating.error _) goesOn

theorem ofMalformed (result : Except Malformed α) : Keeps Inv leaves (Run.ofMalformed result : Run σ α) :=
  ofExcept (fun _ => evaluating.error _) _

theorem ofCause (result : Except Cause α) : Keeps Inv leaves (Run.ofCause result : Run σ α) :=
  ofExcept (fun _ => evaluating.error _) _

theorem ofConversion {result : Except Fault α} (known : ∀ fault, result = .error fault → fault.isConversion = true) :
    Keeps Inv leaves (Run.ofFault result : Run σ α) := by
  cases result with
  | ok value => exact pure value
  | error fault => exact throw (evaluating.conversion fault (known fault rfl))

theorem toDouble (n : Int) : Keeps Inv leaves (Run.toDouble n : Run σ Float) := by
  unfold Run.toDouble
  split
  · exact pure _
  · exact throw (evaluating.conversion _ rfl)

theorem deeper (stable : ∀ session depth, Inv session → Inv { session with depth }) {calls : Nat} {program : Run σ α}
    (inner : Keeps Inv leaves program) : Keeps Inv leaves (Run.deeper calls program) := by
  refine read fun session => ?_
  extract_lets depth next
  have goesOn : Keeps Inv leaves (next ()) :=
    bind (change fun _ holds => stable _ _ holds) fun _ => always inner (change fun _ holds => stable _ _ holds)
  exact check _ evaluating.exhausted goesOn

end

section

variable [plain : Exit.Plain leaves]

theorem ofFault (result : Except Fault α) : Keeps Inv leaves (Run.ofFault result : Run σ α) := ofExcept plain.fault _

theorem ofFailure (result : Except Failure α) : Keeps Inv leaves (Run.ofFailure result : Run σ α) := by
  refine ofExcept (fun failure => ?_) _
  cases failure with
  | cause cause => exact plain.error _
  | fault fault => exact plain.fault fault

end

end Keeps

end Run

/-- A change within the running script: its frame, the scripts that wait, the scopes around the innermost one and the
host stay as they are. -/
structure Session.Local (before after : Session σ) : Prop where
  frame : after.frame = before.frame
  callers : after.callers = before.callers
  scopes : after.store.scopes.drop 1 = before.store.scopes.drop 1
  host : after.host = before.host

def hostAfter {ε : Type} (request : EStateM ε σ α) (host : σ) : σ :=
  match request host with
  | .ok _ after => after
  | .error _ after => after

/-- What a request of a running script does to the host; events are not requests. -/
inductive Env.Answers (env : Env σ) (host : σ) : σ → Prop
  | resolve (name : Text) : Answers env host (hostAfter (env.services.resolve name) host)
  | call (name : Text) (args : List Text) : Answers env host (hostAfter (env.services.call name args) host)
  | dispatch (line : Text) : Answers env host (hostAfter (env.services.dispatch line) host)
  | source (verb : SourceVerb) (qualifier : Option Text) (type name : Text) :
      Answers env host (env.services.askSource verb qualifier type name host).2
  | clock : Answers env host (env.clock host).2
  | wait {handler : Int → EStateM Fault σ Unit} (given : env.wait = some handler) (milliseconds : Int) :
      Answers env host (hostAfter (handler milliseconds) host)

/-- An invariant that changes within the running script keep. -/
class Session.Stable (Inv : Session σ → Prop) : Prop where
  within {before after : Session σ} : Inv before → before.Local after → Inv after

/-- An invariant that requests to the host keep. -/
class Env.Insulates (env : Env σ) (Inv : Session σ → Prop) : Prop where
  answers {session : Session σ} {host : σ} : Inv session → env.Answers session.host host → Inv { session with host }

/-- The scripts that wait for the running one, and the scopes around the innermost one. -/
structure Surroundings where
  callers : List Frame
  scopes : List Scope

def Session.surroundings (session : Session σ) : Surroundings := ⟨session.callers, session.store.scopes.drop 1⟩

instance (around : Surroundings) : Session.Stable fun session : Session σ => session.surroundings = around where
  within inside kept := by simpa only [Session.surroundings, kept.callers, kept.scopes] using inside

instance (env : Env σ) (around : Surroundings) : env.Insulates fun session => session.surroundings = around where
  answers inside _ := inside

namespace Store

theorem set_outer (store : Store) (name value : Text) :
    (store.set name value).scopes.drop 1 = store.scopes.drop 1 := by
  unfold set
  split
  · rfl
  · split
    · rfl
    · unfold updateInnermost
      split
      · rfl
      · rename_i some
        rw [some]
        rfl

theorem setAll_outer (store : Store) (writes : List (Text × Text)) :
    (store.setAll writes).scopes.drop 1 = store.scopes.drop 1 := by
  induction writes generalizing store with
  | nil => rfl
  | cons write rest ih => exact (ih _).trans (store.set_outer _ _)

theorem delete_outer (store : Store) (name : Text) : (store.delete name).2.scopes.drop 1 = store.scopes.drop 1 := by
  simp only [delete, updateInnermost]
  split
  · rfl
  · rename_i some
    rw [some]
    rfl

theorem publish_scopes {store after : Store} {name : Text} (published : store.publish name = .ok after) :
    after.scopes = store.scopes := by
  simp only [publish] at published
  split at published
  · cases published
  · split at published
    · cases published
    · cases published
      rfl

end Store

namespace Run

namespace Keeps

variable {Inv : Session σ → Prop} {leaves : Exit → Prop} [stable : Session.Stable Inv]

theorem changeWithin {f : Session σ → Session σ} (kept : ∀ session : Session σ, session.Local (f session)) :
    Keeps Inv leaves (modify f : Run σ Unit) := change fun session holds => stable.within holds (kept session)

theorem report (text : Text) : Keeps Inv leaves (Run.report text : Run σ Unit) :=
  changeWithin fun _ => ⟨rfl, rfl, rfl, rfl⟩

theorem put (name value : Text) : Keeps Inv leaves (Run.put name value : Run σ Unit) :=
  changeWithin fun session => ⟨rfl, rfl, session.store.set_outer name value, rfl⟩

theorem setAll (writes : List (Text × Text)) :
    Keeps Inv leaves (modify fun session => { session with store := session.store.setAll writes } : Run σ Unit) :=
  changeWithin fun session => ⟨rfl, rfl, session.store.setAll_outer writes, rfl⟩

theorem writeBytes (bytes : List UInt8) : Keeps Inv leaves (modify (·.writeBytes bytes) : Run σ Unit) := by
  refine changeWithin fun session => ?_
  unfold Session.writeBytes
  split <;> exact ⟨rfl, rfl, rfl, rfl⟩

theorem nested [Exit.Evaluating leaves] {calls : Nat} {program : Run σ α} (inner : Keeps Inv leaves program) :
    Keeps Inv leaves (Run.deeper calls program) :=
  deeper (fun _ _ holds => stable.within holds ⟨rfl, rfl, rfl, rfl⟩) inner

omit stable

variable (env : Env σ) [insulated : env.Insulates Inv]

theorem ask_bind {request : HostM σ α} {next : Except Raised α → Run σ β}
    (answers : ∀ host, env.Answers host (hostAfter request host)) (second : ∀ reply, Keeps Inv leaves (next reply)) :
    Keeps Inv leaves (Run.ask request >>= next) := by
  refine bind (fun session holds => ?_) second
  have kept := insulated.answers holds (answers session.host)
  unfold hostAfter at kept
  unfold Run.ask
  generalize request session.host = reply at kept ⊢
  cases reply with
  | ok value host => exact .ok kept
  | error raised host => exact .ok kept

theorem consult {request : σ → α × σ} (answers : ∀ host, env.Answers host (request host).2) :
    Keeps Inv leaves (Run.consult request) :=
  fun session holds => .ok (insulated.answers holds (answers session.host))

theorem askSetting [Session.Stable Inv] {request : SettingM σ α} (answers : ∀ host, env.Answers host (request host).2) :
    Keeps Inv leaves (Run.askSetting request) :=
  bind (consult env answers) fun _ => bind (setAll _) fun _ => pure _

theorem askOr [evaluating : Exit.Evaluating leaves] (wrap : Text → Cause) {request : HostM σ α}
    (answers : ∀ host, env.Answers host (hostAfter request host)) : Keeps Inv leaves (Run.askOr wrap request) := by
  refine ask_bind env answers fun reply => ?_
  split
  · exact pure _
  · exact throw (evaluating.error _)
  · exact fail _

end Keeps

/-- Inside its surroundings a program leaves them as they are, and leaves by exits of a kind. -/
abbrev Confined (around : Surroundings) (leaves : Exit → Prop) (program : Run σ α) : Prop :=
  Keeps (fun session => session.surroundings = around) leaves program

namespace Confined

variable {around : Surroundings} {leaves : Exit → Prop}

theorem change {f : Session σ → Session σ} (kept : ∀ session, (f session).surroundings = session.surroundings) :
    Confined around leaves (modify f : Run σ Unit) := Keeps.change fun session inside => (kept session).trans inside

theorem modifyFrame (f : Frame → Frame) : Confined around leaves (Run.modifyFrame f : Run σ Unit) := change fun _ => rfl

theorem askSetting (request : SettingM σ α) : Confined around leaves (Run.askSetting request) :=
  Keeps.bind (fun _ inside => .ok inside) fun _ => Keeps.bind (Keeps.setAll _) fun _ => Keeps.pure _

end Confined

end Run

end CommandScript
