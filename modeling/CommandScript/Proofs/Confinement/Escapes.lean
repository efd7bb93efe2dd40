import CommandScript.Proofs.Confinement.Scripts

/-! What escapes the session. Evaluation turns script errors into outcomes, and a line of the session reports them; a
`return` and a stop are handled as well. What is left are faults and the bound on nesting, and every fault of a
conversion does escape. -/

namespace CommandScript

variable {σ α : Type}

open Run

def Run.exit? (program : Run σ α) (session : Session σ) : Option Exit :=
  match program session with
  | .ok _ _ => none
  | .error exit _ => some exit

theorem Run.Keeps.exit? {Inv : Session σ → Prop} {leaves : Exit → Prop} {program : Run σ α}
    (keeps : Keeps Inv leaves program) {session : Session σ} (holds : Inv session) {exit : Exit}
    (left : program.exit? session = some exit) : leaves exit := by
  have kept := keeps holds
  unfold Run.exit? at left
  generalize program session = result at kept left
  cases kept with
  | ok still => cases left
  | error still kind =>
      cases left
      exact kind

def Exit.escapesLine : Exit → Prop
  | exhausted => True
  | fault _ => True
  | _ => False

namespace Session

theorem modifyRoot_surroundings {session : Session σ} (bottom : session.callers = []) (f : Frame → Frame) :
    (session.modifyRoot f).surroundings = session.surroundings := by
  simp only [modifyRoot, bottom, List.reverse_nil, surroundings]

end Session

namespace Interpreter

/-- A line of the session itself reports script errors and handles a stop; no script waits, so none returns. -/
theorem parseLine_escapes (env : Env σ) (depth : Nat) (line : Text) {around : Surroundings}
    (bottom : around.callers = []) : Confined around Exit.escapesLine (parseLine env depth line) := by
  refine Keeps.read fun session => ?_
  split
  · exact Keeps.pure _
  refine Keeps.bind (Keeps.change fun session inside => ?_) fun _ => ?_
  · have callers : session.callers = [] := (congrArg Surroundings.callers inside).trans bottom
    exact (Session.modifyRoot_surroundings callers _).trans inside
  refine Keeps.attempt_bind (Keeps.nested (runLine_confined env (execLine_confined env depth around) line))
    (fun _ => Keeps.pure _) fun exit kind => ?_
  cases exit with
  | error error => exact Keeps.bind (Report.add_confined env error) fun _ => Keeps.pure _
  | returned => exact absurd bottom kind
  | stopped code =>
      exact Keeps.bind (Keeps.changeWithin fun session => session.stop_local code) fun _ => Keeps.pure _
  | fault fault => exact Keeps.throw trivial
  | exhausted => exact Keeps.throw trivial

end Interpreter

namespace Expr

theorem evaluate_escapes (env : Env σ) (text : Text) (logical : Bool) {around : Surroundings} :
    Confined around Exit.escapesEvaluation (evaluate env text logical) := evaluate_handles env text logical

def escaping : Session Unit :=
  let start := Session.start {} ()
  { (start.put "long" (.char '1' :: List.replicate 4300 (CodePoint.char '0'))).put "split" "1.5\x1c" with
    writeFile := some { place := ["out"], appends := false } }

def escapingText : Fault → Text
  | .infiniteInteger => "int(1e309)"
  | .nanInteger => "int(1e309 - 1e309)"
  | .integerTooLarge => "sqrt(1" ++ List.replicate 309 (CodePoint.char '0') ++ ")"
  | .dateRange => "etoh(1e12)"
  | .yearZero => "epoch('0000/01/01')"
  | .separator => "split"
  | .digits => "long + 1"
  | .half => "writeString('" ++ ↑(CodePoint.half 0 :: "')")
  | _ => []

/-- Every fault of a conversion escapes an evaluation, and a line that assigns the value. -/
theorem conversion_escapes {fault : Fault} (known : fault.isConversion = true) :
    (evaluate {} (escapingText fault)).exit? escaping = some (.fault fault) ∧
      (Interpreter.parseLine {} 1 ("y = " ++ escapingText fault)).exit? escaping = some (.fault fault) := by
  cases fault with
  | infiniteInteger | nanInteger | integerTooLarge | dateRange | yearZero | separator | digits | half =>
      decide +kernel
  | _ => cases known

end Expr

/-- No script error, no return and no stop escapes an evaluation or a line of the session: they end, or they leave by a
fault or by the bound on nesting. The faults that escape evaluations are those of conversions, and each of them does. -/
theorem escapes_only_faults (env : Env σ) (session : Session σ) (text : Text) :
    (∀ logical exit, (Expr.evaluate env text logical).exit? session = some exit →
      exit = .exhausted ∨ ∃ fault, exit = .fault fault ∧ fault.isConversion = true) ∧
    (∀ depth exit, session.callers = [] → (Interpreter.parseLine env depth text).exit? session = some exit →
      exit = .exhausted ∨ ∃ fault, exit = .fault fault) ∧
    (∀ fault, fault.isConversion = true → ∃ (started : Session Unit) (expression : Text),
      started.callers = [] ∧ (Expr.evaluate {} expression).exit? started = some (.fault fault) ∧
        (Interpreter.parseLine {} 1 ("y = " ++ expression)).exit? started = some (.fault fault)) := by
  refine ⟨?_, ?_, ?_⟩
  · intro logical exit left
    have kind := (Expr.evaluate_escapes env text logical).exit? rfl left
    cases exit with
    | exhausted => exact .inl rfl
    | fault fault => exact .inr ⟨fault, rfl, kind⟩
    | _ => exact kind.elim
  · intro depth exit bottom left
    have kind := (Interpreter.parseLine_escapes env depth text bottom).exit? rfl left
    cases exit with
    | exhausted => exact .inl rfl
    | fault fault => exact .inr ⟨fault, rfl⟩
    | _ => exact kind.elim
  · intro fault known
    exact ⟨Expr.escaping, Expr.escapingText fault, rfl, Expr.conversion_escapes known⟩

/-- The integer of an infinite double is a fault that no script can handle. -/
theorem infiniteInteger_escapes :
    (Interpreter.parseLine {} 1 "y = int(1e309)").exit? Expr.escaping = some (.fault .infiniteInteger) ∧
      (Exit.fault .infiniteInteger = .exhausted ∨ ∃ fault, Exit.fault .infiniteInteger = .fault fault) := by
  have left : (Interpreter.parseLine {} 1 "y = int(1e309)").exit? Expr.escaping = some (.fault .infiniteInteger) := by
    decide +kernel
  exact ⟨left, (escapes_only_faults {} Expr.escaping "y = int(1e309)").2.1 1 _ rfl left⟩

end CommandScript
