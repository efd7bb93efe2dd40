import CommandScript.Proofs.Unfolding

/-! Programs that cannot tell two sessions apart. A program respects a relation of sessions if related
sessions lead it to the same value or exit, and to related sessions again. With "the same session, and
this part of it is so-and-so" as the relation, that is an invariant; with "the same session, but with
another frame", it says that the program neither reads nor changes the frame. -/

namespace CommandScript

variable {σ α β : Type}

/-- Results with the same value or exit, and related sessions. -/
inductive Linked (R : Session σ → Session σ → Prop) :
    EStateM.Result Exit (Session σ) α → EStateM.Result Exit (Session σ) α → Prop
  | ok {value : α} {left right : Session σ} : R left right → Linked R (.ok value left) (.ok value right)
  | error {exit : Exit} {left right : Session σ} :
      R left right → Linked R (.error exit left) (.error exit right)

/-- Related sessions agree on all that an expression reads, and stay related when an expression changes
them in the same way. -/
structure Evaluable (R : Session σ → Session σ → Prop) : Prop where
  store {left right} : R left right → left.store = right.store
  buffers {left right} : R left right → left.buffers = right.buffers
  depth {left right} : R left right → left.depth = right.depth
  writeFile {left right} : R left right → left.writeFile = right.writeFile
  files {left right} : R left right → left.files = right.files
  host {left right} : R left right → left.host = right.host
  withDepth {left right} (depth : Nat) : R left right → R { left with depth } { right with depth }
  withHost {left right} (host : σ) : R left right → R { left with host } { right with host }
  writeBytes {left right} (bytes : List UInt8) :
    R left right → R (left.writeBytes bytes) (right.writeBytes bytes)

/-- As `Evaluable`, for the commands that write and report. -/
structure Printable (R : Session σ → Session σ → Prop) : Prop extends Evaluable R where
  printFile {left right} : R left right → left.printFile = right.printFile
  report {left right} (text : Text) : R left right → R (left.report text) (right.report text)
  output {left right} (text : Text) : R left right →
    R { left with output := left.output.push text } { right with output := right.output.push text }
  withPrintFile {left right} (printFile : Option Handle) (files : FileTree) :
    R left right → R { left with printFile, files } { right with printFile, files }
  withWriteFile {left right} (writeFile : Option Handle) (files : FileTree) :
    R left right → R { left with writeFile, files } { right with writeFile, files }

/-- As `Printable`, for the commands that set variables. -/
structure Commandable (R : Session σ → Session σ → Prop) : Prop extends Printable R where
  withStore {left right} (store : Store) : R left right → R { left with store } { right with store }

namespace Run

def Respects (R : Session σ → Session σ → Prop) (program : Run σ α) : Prop :=
  ∀ ⦃left right⦄, R left right → Linked R (program left) (program right)

namespace Respects

variable {R : Session σ → Session σ → Prop}

@[grind ←] theorem pure (value : α) : Respects R (pure value : Run σ α) := fun _ _ related => .ok related

@[grind ←] theorem throw (exit : Exit) : Respects R (throw exit : Run σ α) :=
  fun _ _ related => .error related

@[grind ←] theorem fail (cause : Cause) : Respects R (Run.fail cause : Run σ α) := throw _

@[grind ←] theorem bind {program : Run σ α} {next : α → Run σ β} (first : Respects R program)
    (second : ∀ value, Respects R (next value)) : Respects R (program >>= next) := by
  intro left right related
  change Linked R (EStateM.bind program next left) (EStateM.bind program next right)
  unfold EStateM.bind
  have linked := first related
  generalize program left = before at linked ⊢
  generalize program right = after at linked ⊢
  cases linked with
  | ok related => exact second _ related
  | error related => exact .error related

theorem guard (refused : Prop) [Decidable refused] (cause : Cause) {next : Run σ α}
    (goesOn : Respects R next) :
    Respects R (if refused then (do let _ ← (Run.fail cause : Run σ PUnit); next) else next) := by
  split
  · exact bind (fail cause) fun _ => goesOn
  · exact goesOn

theorem read {next : Session σ → Run σ β} (same : ∀ left right, R left right → next left = next right)
    (second : ∀ session, Respects R (next session)) : Respects R (get >>= next) := by
  intro left right related
  change Linked R (next left left) (next right right)
  rw [← same left right related]
  exact second left related

theorem change {f : Session σ → Session σ} (kept : ∀ left right, R left right → R (f left) (f right)) :
    Respects R (modify f : Run σ Unit) := fun left right related => .ok (kept left right related)

@[grind ←] theorem ofExcept {ε : Type} (wrap : ε → Exit) (result : Except ε α) :
    Respects R (Run.ofExcept wrap result : Run σ α) := by
  cases result with
  | ok value => exact pure value
  | error error => exact throw (wrap error)

@[grind ←] theorem ofFault (result : Except Fault α) : Respects R (Run.ofFault result : Run σ α) :=
  ofExcept _ _

@[grind ←] theorem ofFailure (result : Except Failure α) : Respects R (Run.ofFailure result : Run σ α) :=
  ofExcept _ _

@[grind ←] theorem ofMalformed (result : Except Malformed α) :
    Respects R (Run.ofMalformed result : Run σ α) := ofExcept _ _

@[grind ←] theorem ofStore (result : Except StoreError α) : Respects R (Run.ofStore result : Run σ α) :=
  ofExcept _ _

@[grind ←] theorem ofCause (result : Except Cause α) : Respects R (Run.ofCause result : Run σ α) :=
  ofExcept _ _

@[grind ←] theorem attempt {program : Run σ α} (inner : Respects R program) :
    Respects R (Run.attempt program) := by
  intro left right related
  unfold Run.attempt
  have linked := inner related
  generalize program left = before at linked ⊢
  generalize program right = after at linked ⊢
  cases linked with
  | ok related => exact .ok related
  | error related => exact .ok related

@[grind ←] theorem always {program : Run σ α} {after : Run σ Unit} (first : Respects R program)
    (second : Respects R after) : Respects R (Run.always program after) := by
  refine bind first.attempt fun result => bind second fun _ => ?_
  cases result with
  | ok value => exact pure value
  | error exit => exact throw exit

@[grind ←] theorem caught {program : Run σ α} (inner : Respects R program) :
    Respects R (Run.caught program) := by
  refine bind inner.attempt fun result => ?_
  split
  · exact pure _
  · exact pure _
  · exact throw _

@[grind ←] theorem onError {program : Run σ α} {handler : ScriptError → Run σ α}
    (inner : Respects R program) (handled : ∀ error, Respects R (handler error)) :
    Respects R (Run.onError program handler) := by
  refine bind inner.attempt fun result => ?_
  split
  · exact pure _
  · exact handled _
  · exact throw _

@[grind ←] theorem forM {items : List β} {program : β → Run σ PUnit}
    (each : ∀ item, Respects R (program item)) : Respects R (items.forM program) := by
  induction items with
  | nil => exact pure _
  | cons item rest ih => exact bind (each item) fun _ => ih

@[grind ←] theorem toDouble (n : Int) : Respects R (Run.toDouble n : Run σ Float) := by
  unfold Run.toDouble
  split
  · exact pure _
  · exact throw _

@[grind ←] theorem deeper (evaluable : Evaluable R) {calls : Nat} {program : Run σ α}
    (inner : Respects R program) : Respects R (Run.deeper calls program) := by
  refine read (fun left right related => by rw [evaluable.depth related]) fun session => ?_
  extract_lets depth next
  have goesOn : Respects R (next ()) :=
    bind (change fun _ _ related => evaluable.withDepth _ related) fun _ =>
      always inner (change fun _ _ related => evaluable.withDepth _ related)
  split
  · exact bind (throw _) fun _ => goesOn
  · exact goesOn

@[grind ←] theorem ask (evaluable : Evaluable R) (request : HostM σ α) : Respects R (Run.ask request) := by
  intro left right related
  unfold Run.ask
  rw [← evaluable.host related]
  cases request left.host with
  | ok value host => exact .ok (evaluable.withHost host related)
  | error raised host => exact .ok (evaluable.withHost host related)

@[grind ←] theorem consult (evaluable : Evaluable R) (request : σ → α × σ) : Respects R (Run.consult request) := by
  intro left right related
  unfold Run.consult
  rw [← evaluable.host related]
  exact .ok (evaluable.withHost _ related)

@[grind ←] theorem askOr (evaluable : Evaluable R) (wrap : Text → Cause) (request : HostM σ α) :
    Respects R (Run.askOr wrap request) := by
  refine bind (ask evaluable request) fun result => ?_
  split
  · exact pure _
  · exact throw _
  · exact fail _

@[grind ←] theorem readVariable (evaluable : Evaluable R) (name : Text) :
    Respects R (Run.readVariable name : Run σ (Option Text)) :=
  read (fun left right related => by rw [evaluable.store related]) fun _ => ofFailure _

theorem writeBytes (evaluable : Evaluable R) (bytes : List UInt8) :
    Respects R (modify (·.writeBytes bytes) : Run σ Unit) :=
  change fun _ _ related => evaluable.writeBytes bytes related

@[grind ←] theorem put (commandable : Commandable R) (name value : Text) :
    Respects R (Run.put name value : Run σ Unit) := by
  refine change fun left right related => ?_
  unfold Session.put
  rw [commandable.store related]
  exact commandable.withStore _ related

theorem askSetting (commandable : Commandable R) (request : SettingM σ α) : Respects R (Run.askSetting request) :=
  bind (consult commandable.toEvaluable request) fun _ =>
    bind (change fun left right related => by rw [commandable.store related]; exact commandable.withStore _ related)
      fun _ => pure _

@[grind ←] theorem report (printable : Printable R) (text : Text) :
    Respects R (Run.report text : Run σ Unit) :=
  change fun _ _ related => printable.report text related

end Respects

end Run

end CommandScript
