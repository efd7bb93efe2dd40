import CommandScript.Proofs.Confinement.Conversions

/-! Evaluation is confined: expressions change nothing outside the running script, make no requests to the host but
those that scripts can make, and leave only by script errors, by faults of conversions and by the bound on nesting. -/

namespace CommandScript

variable {σ α β : Type}

namespace Run

theorem bind_ended {program : Run σ α} {next : α → Run σ β} {session after : Session σ} {value : β}
    (ran : (program >>= next) session = .ok value after) :
    ∃ first middle, program session = .ok first middle ∧ next first middle = .ok value after := by
  change EStateM.bind program next session = _ at ran
  unfold EStateM.bind at ran
  cases inner : program session with
  | ok first middle =>
      rw [inner] at ran
      exact ⟨first, middle, rfl, ran⟩
  | error exit middle =>
      rw [inner] at ran
      cases ran

theorem bind_ok {program : Run σ α} {session middle : Session σ} {first : α} (ran : program session = .ok first middle)
    (next : α → Run σ β) : (program >>= next) session = next first middle := by
  change EStateM.bind program next session = _
  rw [EStateM.bind, ran]

end Run

open Run

variable {Inv : Session σ → Prop} {leaves : Exit → Prop} [evaluating : Exit.Evaluating leaves]

theorem Run.Keeps.readVariable (name : Text) :
    Keeps Inv leaves (Run.readVariable name : Run σ (Option Text)) := by
  refine Keeps.read fun session => ?_
  cases found : session.store.get? name with
  | ok value => exact Keeps.pure value
  | error failure =>
      cases failure with
      | cause cause => exact Keeps.throw (evaluating.error _)
      | fault fault => exact Keeps.throw (evaluating.conversion fault (Store.get?_fault found))

namespace Builtin

theorem refuse_confined (f : Builtin) (error : ArgumentError) :
    Keeps Inv leaves (f.refuse error : Run σ α) := Keeps.fail _

theorem guard_confined (f : Builtin) (refused : Prop) [Decidable refused] (error : ArgumentError)
    {next : Run σ α} (goesOn : Keeps Inv leaves next) :
    Keeps Inv leaves (if refused then (do let _ ← (f.refuse error : Run σ PUnit); next) else next) :=
  Keeps.guard _ _ goesOn

theorem number_confined (f : Builtin) (error : ArgumentError) (value : Value) :
    Keeps Inv leaves (f.number error value : Run σ Float) := by
  cases value with
  | int n => exact Keeps.toDouble n
  | real x => exact Keeps.pure x
  | _ => exact refuse_confined f error

theorem integer_confined (f : Builtin) (error : ArgumentError) (value : Value) :
    Keeps Inv leaves (f.integer error value : Run σ Int) := by
  cases value with
  | int n => exact Keeps.pure n
  | _ => exact refuse_confined f error

theorem checkMath_confined (f : Builtin) (result : Except ArgumentError α) :
    Keeps Inv leaves (f.checkMath result : Run σ α) := by
  cases result with
  | ok value => exact Keeps.pure value
  | error error => exact refuse_confined f error

theorem resolve_confined (env : Env σ) [env.Insulates Inv] (name : Text) : Keeps Inv leaves (resolve env name) :=
  Keeps.askOr env _ fun _ => .resolve name

theorem isDefined_confined (env : Env σ) [env.Insulates Inv] (name : Text) :
    Keeps Inv leaves (isDefined env name) := by
  refine Keeps.bind (Keeps.ofConversion (parseDouble_converts name)) fun number => ?_
  split
  · exact Keeps.pure _
  refine Keeps.bind (Keeps.readVariable name) fun stored => ?_
  split
  · exact Keeps.pure _
  refine Keeps.read fun session => ?_
  split
  · exact Keeps.pure _
  · exact Keeps.bind (resolve_confined env name) fun _ => Keeps.pure _

theorem runSubstr_confined (f : Builtin) (text : Text) (start count : Value) :
    Keeps Inv leaves (f.runSubstr text start count : Run σ Value) := by
  refine Keeps.bind (integer_confined f _ _) fun first => ?_
  refine Keeps.bind (integer_confined f _ _) fun length => ?_
  exact guard_confined f _ _ (Keeps.pure _)

theorem maxabsWindow_confined (f : Builtin) (size : Nat) (args : List Value) :
    Keeps Inv leaves (f.maxabsWindow size args : Run σ (Int × Int)) := by
  unfold maxabsWindow
  extract_lets start stop given
  have windowEnd (start : Int) : Keeps Inv leaves (given () start) := by
    have last (start stop : Int) : Keeps Inv leaves (do
        if size = 0 then f.refuse .startHigh
        return (start, stop) : Run σ (Int × Int)) := guard_confined f _ _ (Keeps.pure _)
    dsimp only [given]
    cases args[1]? with
    | none => exact last start stop
    | some value =>
        refine Keeps.bind (integer_confined f _ _) fun n => ?_
        exact guard_confined f _ _ (guard_confined f _ _ (last start (n - 1)))
  cases args[0]? with
  | none => exact windowEnd start
  | some value =>
      refine Keeps.bind (integer_confined f _ _) fun n => ?_
      exact guard_confined f _ _ (guard_confined f _ _ (windowEnd (n - 1)))

theorem guard_ended {f : Builtin} {refused : Prop} [Decidable refused] {error : ArgumentError} {next : Run σ α}
    {session after : Session σ} {value : α}
    (ran : (if refused then (do let _ ← (f.refuse error : Run σ PUnit); next) else next) session = .ok value after) :
    ¬refused ∧ next session = .ok value after := by
  split at ran
  · cases ran
  · rename_i accepted
    exact ⟨accepted, ran⟩

theorem maxabsWindow_bounds {f : Builtin} {size : Nat} {args : List Value} {session after : Session σ}
    {start stop : Int} (ran : f.maxabsWindow size args session = .ok (start, stop) after) :
    0 ≤ start ∧ start ≤ stop ∧ stop < size := by
  unfold maxabsWindow at ran
  cases first : args[0]? with
  | none =>
      cases second : args[1]? with
      | none =>
          simp only [first, second] at ran
          obtain ⟨filled, same⟩ := guard_ended ran
          cases same
          omega
      | some last =>
          simp only [first, second] at ran
          obtain ⟨n, middle, -, ran⟩ := bind_ended ran
          obtain ⟨ordered, ran⟩ := guard_ended ran
          obtain ⟨within, ran⟩ := guard_ended ran
          obtain ⟨filled, same⟩ := guard_ended ran
          cases same
          omega
  | some value =>
      simp only [first] at ran
      obtain ⟨m, middle, -, ran⟩ := bind_ended ran
      obtain ⟨low, ran⟩ := guard_ended ran
      obtain ⟨high, ran⟩ := guard_ended ran
      cases second : args[1]? with
      | none =>
          simp only [second] at ran
          obtain ⟨filled, same⟩ := guard_ended ran
          cases same
          omega
      | some last =>
          simp only [second] at ran
          obtain ⟨n, later, -, ran⟩ := bind_ended ran
          obtain ⟨ordered, ran⟩ := guard_ended ran
          obtain ⟨within, ran⟩ := guard_ended ran
          obtain ⟨filled, same⟩ := guard_ended ran
          cases same
          omega

end Builtin

theorem Buffer.length_magnitudes (buffer : Buffer) : buffer.magnitudes.length = buffer.size := by
  cases buffer <;> simp [magnitudes, size]

theorem Buffer.maxabs_found {buffer : Buffer} {start stop : Int} (low : 0 ≤ start) (ordered : start ≤ stop)
    (high : stop < buffer.size) : ∃ place, buffer.maxabs start stop = .ok place := by
  have length := buffer.length_magnitudes
  have nonempty : (buffer.magnitudes.take (clamp buffer.size (stop + 1))).drop (clamp buffer.size start) ≠ [] := by
    rw [ne_eq, List.drop_eq_nil_iff, List.length_take]
    simp only [clamp]
    rw [if_neg (by omega), if_neg (by omega)]
    omega
  obtain ⟨head, rest, window⟩ := List.exists_cons_of_ne_nil nonempty
  simp only [maxabs, window]
  exact ⟨_, rfl⟩

namespace Builtin

theorem runMaxabs_confined (f : Builtin) (args : List Value) :
    Keeps Inv leaves (f.runMaxabs args : Run σ Value) := by
  cases args with
  | nil => exact refuse_confined f _
  | cons first rest =>
      refine guard_confined f _ _ ?_
      cases first with
      | buffer buffer =>
          -- the bounds are known from the run, so the window is looked at where it has been computed
          refine Keeps.bindEnded (maxabsWindow_confined f buffer.size rest) ?_
          rintro session after ⟨start, stop⟩ ran
          obtain ⟨low, ordered, high⟩ := maxabsWindow_bounds ran
          obtain ⟨place, found⟩ := Buffer.maxabs_found low ordered high
          simp only [found]
          exact Keeps.pure _
      | _ => exact refuse_confined f _

theorem expectWriteFile_confined (f : Builtin) : Keeps Inv leaves (f.expectWriteFile : Run σ Unit) :=
  Keeps.read fun _ => guard_confined f _ _ (Keeps.pure _)

theorem writtenValue_confined (f : Builtin) (args : List Value) :
    Keeps Inv leaves (f.writtenValue args : Run σ Value) := by
  refine Keeps.bind (expectWriteFile_confined f) fun _ => ?_
  split
  · exact refuse_confined f _
  · exact Keeps.pure _
  · exact refuse_confined f _

theorem writeInteger_confined [Session.Stable Inv] (f : Builtin) (width : Nat) (args : List Value) :
    Keeps Inv leaves (f.writeInteger width args : Run σ Value) := by
  refine Keeps.bind (writtenValue_confined f args) fun value => ?_
  refine Keeps.bind (integer_confined f _ _) fun n => guard_confined f _ _ ?_
  exact Keeps.bind (Keeps.writeBytes _) fun _ => Keeps.pure _

theorem writeReal_confined [Session.Stable Inv] (f : Builtin) (encode : Float → List UInt8) (args : List Value) :
    Keeps Inv leaves (f.writeReal encode args : Run σ Value) := by
  refine Keeps.bind (writtenValue_confined f args) fun value => ?_
  refine Keeps.bind (number_confined f _ _) fun x => ?_
  exact Keeps.bind (Keeps.writeBytes _) fun _ => Keeps.pure _

theorem refuseNumber_confined (f : Builtin) (n : Int) (error : ArgumentError) :
    Keeps Inv leaves (f.refuseNumber n error : Run σ α) :=
  Keeps.bind (Keeps.ofConversion (Number.integerText_converts n)) fun _ => refuse_confined f _

theorem arrayWindow_confined (f : Builtin) (size : Nat) (start count : Value) :
    Keeps Inv leaves (f.arrayWindow size start count : Run σ (Nat × Nat)) := by
  have checked {refused : Prop} [Decidable refused] (n : Int) (error : ArgumentError)
      {next : Run σ (Nat × Nat)} (goesOn : Keeps Inv leaves next) :
      Keeps Inv leaves
        (if refused then (do let _ ← (f.refuseNumber n error : Run σ PUnit); next) else next) := by
    split
    · exact Keeps.bind (refuseNumber_confined f n error) fun _ => goesOn
    · exact goesOn
  refine Keeps.bind (integer_confined f _ _) fun first => checked _ _ (checked _ _ ?_)
  exact Keeps.bind (integer_confined f _ _) fun length => checked _ _ (checked _ _ (Keeps.pure _))

theorem runWriteArray_confined [Session.Stable Inv] (f : Builtin) (args : List Value) :
    Keeps Inv leaves (f.runWriteArray args : Run σ Value) := by
  refine Keeps.bind (expectWriteFile_confined f) fun _ => ?_
  extract_lets written
  have writes (given : Value × Option (Value × Value)) : Keeps Inv leaves (written given) := by
    obtain ⟨first, window⟩ := given
    cases first with
    | buffer buffer =>
        have last (place : Nat × Nat) : Keeps Inv leaves (do
            modify (·.writeBytes (buffer.bytes place.1 place.2).2)
            return .int (buffer.bytes place.1 place.2).1 : Run σ Value) :=
          Keeps.bind (Keeps.writeBytes _) fun _ => Keeps.pure _
        cases window with
        | none => exact Keeps.bind (Keeps.pure _) last
        | some range => exact Keeps.bind (arrayWindow_confined f _ range.1 range.2) last
    | _ => exact refuse_confined f _
  split
  · exact Keeps.bind (Keeps.pure _) writes
  · exact Keeps.bind (Keeps.pure _) writes
  · exact Keeps.bind (refuse_confined f _) writes

theorem writeText_confined [Session.Stable Inv] (f : Builtin) (value : Value) :
    Keeps Inv leaves (match value with
      | .text s => do
        let bytes ← Run.ofFault (encodeWhole s)
        modify (·.writeBytes bytes)
        return .int bytes.length
      | _ => f.refuse .type : Run σ Value) := by
  cases value with
  | text s =>
      refine Keeps.bind (Keeps.ofConversion (encodeWhole_converts s)) fun bytes => ?_
      exact Keeps.bind (Keeps.writeBytes _) fun _ => Keeps.pure _
  | _ => exact refuse_confined f _

theorem run_confined (env : Env σ) [Session.Stable Inv] [env.Insulates Inv] (f : Builtin) (args : List Value) :
    Keeps Inv leaves (f.run env args) := by
  unfold run
  split
  · exact Keeps.bind (number_confined _ _ _) fun x => Keeps.bind (checkMath_confined _ _) fun _ => Keeps.pure _
  · refine Keeps.bind (number_confined _ _ _) fun x => Keeps.bind (number_confined _ _ _) fun y => ?_
    exact Keeps.bind (checkMath_confined _ _) fun _ => Keeps.pure _
  · exact Keeps.pure _
  · exact Keeps.bind (number_confined _ _ _) fun _ => Keeps.pure _
  · refine Keeps.bind (number_confined _ _ _) fun x => ?_
    exact Keeps.bind (Keeps.ofConversion (Number.truncate_converts x)) fun _ => Keeps.pure _
  · exact Keeps.bind (number_confined _ _ _) fun _ => Keeps.pure _
  · exact Keeps.bind (Keeps.consult env fun _ => .clock) fun _ => Keeps.pure _
  · refine Keeps.bind (Keeps.ofConversion (Time.parseTime_converts _)) fun time => ?_
    split
    · exact Keeps.pure _
    · exact refuse_confined _ _
  · exact Keeps.bind (number_confined _ _ _) fun _ => Keeps.pure _
  · refine Keeps.bind (number_confined _ _ _) fun x => ?_
    exact Keeps.bind (Keeps.ofConversion (Time.formatTime_converts _ x)) fun _ => Keeps.pure _
  · exact Keeps.bind (Keeps.ofConversion (Value.render_converts _)) fun _ => runSubstr_confined _ _ _ _
  · exact Keeps.bind (isDefined_confined env _) fun _ => Keeps.pure _
  · exact refuse_confined _ _
  · exact runMaxabs_confined _ _
  · exact Keeps.bind (writtenValue_confined _ _) fun value => writeText_confined _ value
  · exact writeInteger_confined _ _ _
  · exact writeInteger_confined _ _ _
  · exact writeReal_confined _ _ _
  · exact writeReal_confined _ _ _
  · exact runWriteArray_confined _ _
  · exact refuse_confined _ _

theorem sizeOf?_confined (name : Text) : Keeps Inv leaves (sizeOf? name : Run σ (Option Int)) := by
  refine Keeps.read fun session => ?_
  split
  · exact Keeps.pure _
  refine Keeps.bind (Keeps.readVariable name) fun stored => ?_
  split <;> exact Keeps.pure _

theorem callHost_confined (env : Env σ) [env.Insulates Inv] (name : Text) (args : List Value) :
    Keeps Inv leaves (callHost env name args) := by
  refine Keeps.bind (Keeps.ofConversion (Value.renderAll_converts args)) fun texts => ?_
  refine Keeps.bind (Keeps.askOr env _ fun _ => .call name texts) fun outcome => ?_
  refine Keeps.guard _ _ (Keeps.guard _ _ ?_)
  exact Keeps.ofConversion outcome.toValue_converts

theorem invoke_confined (env : Env σ) [Session.Stable Inv] [env.Insulates Inv] (name : Text) (args : List Value) :
    Keeps Inv leaves (invoke env name args) := by
  unfold invoke
  split
  · rename_i f _
    have runs := @run_confined σ Inv leaves _ env _ _ f args
    split
    · refine guard_confined f _ _ ?_
      exact runs
    · exact runs
  · split
    · refine Keeps.bind (sizeOf?_confined _) fun size => ?_
      split
      · exact Keeps.pure _
      · exact callHost_confined env name args
    · exact callHost_confined env name args

end Builtin

namespace Expr

theorem asDouble_confined (value : Value) : Keeps Inv leaves (asDouble value : Run σ Float) := by
  cases value with
  | int n => exact Keeps.toDouble n
  | _ => exact Keeps.pure _

theorem onInts_confined (op : Arithmetic) (a b : Int) : Keeps Inv leaves (onInts op a b : Run σ Value) := by
  cases op with
  | div =>
      simp only [onInts]
      split
      · exact Keeps.fail _
      · exact Keeps.pure _
  | _ => exact Keeps.pure _

theorem onDoubles_confined (op : Arithmetic) (x y : Float) :
    Keeps Inv leaves (onDoubles op x y : Run σ Value) := by
  cases op with
  | div =>
      simp only [onDoubles]
      split
      · exact Keeps.fail _
      · exact Keeps.pure _
  | _ => exact Keeps.pure _

theorem arithmetic_confined (op : Arithmetic) (left right : Value) :
    Keeps Inv leaves (arithmetic op left right : Run σ Value) := by
  refine Keeps.guard _ _ (Keeps.guard _ _ ?_)
  split
  · exact onInts_confined op _ _
  · refine Keeps.bind (asDouble_confined left) fun x => Keeps.bind (asDouble_confined right) fun y => ?_
    exact onDoubles_confined op x y

theorem compare_confined (op : Comparison) (left right : Value) :
    Keeps Inv leaves (compare op left right : Run σ Value) := by
  unfold compare
  split
  · exact Keeps.pure _
  · exact Keeps.pure _
  · split
    · refine Keeps.bind (asDouble_confined left) fun x => ?_
      exact Keeps.bind (asDouble_confined right) fun y => Keeps.pure _
    · exact Keeps.pure _

theorem truth_confined (text : Text) (cause : Cause) {given : Bool → Run σ α}
    (goesOn : ∀ flag, Keeps Inv leaves (given flag)) :
    Keeps Inv leaves (match truthOf text with
      | some flag => given flag
      | none => Run.fail cause) := by
  cases truthOf text with
  | some flag => exact goesOn flag
  | none => exact Keeps.fail cause

theorem connected_confined (op : Connective) (value : Value) :
    Keeps Inv leaves (connected op value : Run σ Bool) := by
  cases value with
  | int n => exact Keeps.pure _
  | text s => exact truth_confined s _ Keeps.pure
  | real x => exact Keeps.fail _
  | buffer b => exact Keeps.fail _

theorem combine_confined (op : BinaryOp) (left right : Value) :
    Keeps Inv leaves (combine op left right : Run σ Value) := by
  cases op with
  | arithmetic op => exact arithmetic_confined op left right
  | comparison op => exact compare_confined op left right
  | connective op =>
      refine Keeps.bind (connected_confined op left) fun a => ?_
      exact Keeps.bind (connected_confined op right) fun b => Keeps.pure _

theorem negated_confined (value : Value) : Keeps Inv leaves (negated value : Run σ Value) := by
  cases value with
  | int n => exact Keeps.pure _
  | real x => exact Keeps.pure _
  | _ => exact Keeps.fail _

theorem inverted_confined (value : Value) : Keeps Inv leaves (inverted value : Run σ Value) := by
  cases value with
  | int n => exact Keeps.pure _
  | real x => exact Keeps.pure _
  | text s => exact truth_confined s _ fun flag => Keeps.pure _
  | buffer b => exact Keeps.fail _

theorem external_confined (env : Env σ) [env.Insulates Inv] (name : Text) : Keeps Inv leaves (external env name) := by
  refine Keeps.bind (Builtin.resolve_confined env name) fun outcome => ?_
  exact Keeps.guard _ _ (Keeps.guard _ _ (Keeps.ofConversion outcome.toValue_converts))

theorem evalTerm_confined (env : Env σ) [env.Insulates Inv] (text : Text) : Keeps Inv leaves (evalTerm env text) := by
  unfold evalTerm
  dsimp only
  split
  · exact Keeps.pure _
  refine Keeps.bind (Keeps.ofConversion (Number.parseInt_converts text)) fun whole => ?_
  split
  · exact Keeps.pure _
  refine Keeps.bind (Keeps.ofConversion (parseDouble_converts text)) fun real => ?_
  split
  · exact Keeps.pure _
  refine Keeps.bind (Keeps.readVariable text) fun stored => ?_
  split
  · exact Keeps.ofConversion (Value.classify_converts _)
  refine Keeps.read fun session => ?_
  split
  · exact Keeps.pure _
  · exact external_confined env text

theorem evalElement_confined (env : Env σ) [env.Insulates Inv] (name : Text) (index : Value) :
    Keeps Inv leaves (evalElement env name index) := by
  cases index with
  | int n =>
      refine Keeps.bind (Keeps.ofConversion (Number.integerText_converts n)) fun digits => ?_
      refine Keeps.bind (Keeps.readVariable _) fun stored => ?_
      split
      · exact Keeps.ofConversion (Value.classify_converts _)
      · exact external_confined env _
  | _ => exact Keeps.fail _

mutual

theorem eval_confined {leaves : Exit → Prop} [Exit.Evaluating leaves] (env : Env σ) [Session.Stable Inv]
    [env.Insulates Inv] (logical : Bool) (e : Expr) : Keeps Inv leaves (eval env logical e) := by
  cases e with
  | term text => exact evalTerm_confined env text
  | element name index =>
      exact Keeps.bind (eval_confined env false index) fun value => evalElement_confined env name value
  | quoted text inCall =>
      unfold eval
      split
      · exact Keeps.pure _
      · exact Keeps.fail _
  | group bare inner => exact eval_confined env logical inner
  | call name args =>
      unfold eval
      split
      · exact Builtin.invoke_confined env name _
      · exact Keeps.bind (evalAll_confined env logical args) fun values => Builtin.invoke_confined env name values
  | negate operand => exact Keeps.bind (eval_confined env logical operand) negated_confined
  | invert operand => exact Keeps.bind (eval_confined env logical operand) inverted_confined
  | binary op left right =>
      refine Keeps.bind (eval_confined env logical left) fun a => ?_
      exact Keeps.bind (eval_confined env logical right) fun b => combine_confined op a b

theorem evalAll_confined {leaves : Exit → Prop} [Exit.Evaluating leaves] (env : Env σ) [Session.Stable Inv]
    [env.Insulates Inv] (logical : Bool) (args : List Expr) : Keeps Inv leaves (evalAll env logical args) := by
  cases args with
  | nil => exact Keeps.pure _
  | cons e rest =>
      refine Keeps.bind (eval_confined env logical e) fun value => ?_
      exact Keeps.bind (evalAll_confined env logical rest) fun _ => Keeps.pure _

end

theorem read_confined [Session.Stable Inv] (text : Text) : Keeps Inv leaves (read text : Run σ Expr) :=
  Keeps.bind (Keeps.ofMalformed _) fun _ => Keeps.nested (Keeps.pure _)

theorem valueOf_confined (env : Env σ) [Session.Stable Inv] [env.Insulates Inv] (text : Text) :
    Keeps Inv leaves (valueOf env text) := by
  unfold valueOf
  dsimp only
  split
  · exact Keeps.pure _
  split
  · exact Keeps.pure _
  · exact Keeps.bind (read_confined _) fun e => eval_confined env false e

theorem truthOfValue_confined (value : Value) (text : Text) :
    Keeps Inv leaves (truthOfValue value text : Run σ Bool) := by
  cases value with
  | int n => exact Keeps.pure _
  | real x => exact Keeps.pure _
  | text s => exact truth_confined s _ Keeps.pure
  | buffer b => exact Keeps.fail _

theorem condition_confined (env : Env σ) [Session.Stable Inv] [env.Insulates Inv] (text : Text) :
    Keeps Inv leaves (condition env text) := by
  unfold condition
  dsimp only
  split
  · exact Keeps.pure _
  · refine Keeps.bind (read_confined _) fun e => ?_
    exact Keeps.bind (eval_confined env true e) fun value => truthOfValue_confined value _

end Expr

def Exit.escapesEvaluation : Exit → Prop
  | exhausted => True
  | fault reason => reason.isConversion = true
  | _ => False

def Exit.leavesEvaluation : Exit → Prop
  | error _ => True
  | exit => exit.escapesEvaluation

instance : Exit.Evaluating Exit.leavesEvaluation where
  error _ := trivial
  exhausted := trivial
  conversion _ known := known

namespace Expr

/-- An evaluation handles script errors; only faults of conversions and the bound on nesting pass. -/
theorem evaluate_handles (env : Env σ) [Session.Stable Inv] [env.Insulates Inv] (text : Text) (logical : Bool) :
    Keeps Inv Exit.escapesEvaluation (evaluate env text logical) := by
  refine @Keeps.onError _ _ _ Exit.leavesEvaluation _ _ _ ?_ (fun error => Keeps.pure _) ?_
  · split
    · exact Keeps.bind (condition_confined env text) fun _ => Keeps.pure _
    · refine Keeps.bind (valueOf_confined env text) fun value => ?_
      split
      · exact Keeps.pure _
      · exact Keeps.bind (Keeps.ofConversion (Value.render_converts _)) fun _ => Keeps.pure _
  · intro exit kind unhandled
    cases exit with
    | error error => exact absurd rfl (unhandled error)
    | _ => exact kind

theorem evaluate_confined (env : Env σ) [Session.Stable Inv] [env.Insulates Inv] (text : Text) (logical : Bool) :
    Keeps Inv leaves (evaluate env text logical) := by
  refine (evaluate_handles env text logical).mono fun exit kind => ?_
  cases exit with
  | exhausted => exact evaluating.exhausted
  | fault fault => exact evaluating.conversion fault kind
  | _ => exact kind.elim

end Expr

end CommandScript
