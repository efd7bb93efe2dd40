import CommandScript.Interpreter

/-! What the operations of a program with state and errors come to at a given state, and how some of the
longer programs go on from a given session. Proofs that follow a program step by step share these
equations. -/

namespace EStateM

variable {ε σ α : Type}

theorem get_apply (state : σ) : (get : EStateM ε σ σ) state = .ok state state := rfl

theorem modify_apply (change : σ → σ) (state : σ) :
    (modify change : EStateM ε σ PUnit) state = .ok ⟨⟩ (change state) := rfl

theorem throw_apply (error : ε) (state : σ) : (throw error : EStateM ε σ α) state = .error error state := rfl

end EStateM

namespace CommandScript

variable {σ : Type} {env : Env σ} {session : Session σ}

/-- The session that a program leaves, whatever way it ends. -/
def Run.leaves {α : Type} (program : Run σ α) (session : Session σ) : Session σ :=
  match program session with
  | .ok _ after => after
  | .error _ after => after

theorem Run.leaves_ok {α : Type} {program : Run σ α} {session after : Session σ} {value : α}
    (ran : program session = .ok value after) : program.leaves session = after := by rw [leaves, ran]

theorem Run.leaves_error {α : Type} {program : Run σ α} {session after : Session σ} {exit : Exit}
    (ran : program session = .error exit after) : program.leaves session = after := by rw [leaves, ran]

def Run.answer? {α : Type} (program : Run σ α) (session : Session σ) : Option α :=
  match program session with
  | .ok value _ => some value
  | .error _ _ => none

theorem Run.answer?_eq_some {α : Type} {program : Run σ α} {session : Session σ} {value : α}
    (answered : program.answer? session = some value) : program session = .ok value (program.leaves session) := by
  unfold answer? at answered
  unfold leaves
  cases ran : program session with
  | ok _ after =>
      rw [ran] at answered
      rw [Option.some.inj answered]
  | error exit after =>
      rw [ran] at answered
      cases answered

namespace Flow

theorem bindFirst_stored (name : Text) : bindFirst env (.list name none) = bindFields name := rfl

theorem bindFirst_literal (name text : Text) :
    bindFirst env (.list name (some text)) = (do Run.put name text; bindFields name) := rfl

theorem finishLoop_found {depth : Nat} {loop : Loop} (found : session.frame.loopAt? depth = some loop) (resume : Nat) :
    finishLoop env depth resume session =
      closeLoop env loop
        { session.noteEnd loop with
          frame :=
            { (session.noteEnd loop).frame with
              line := resume
              loops := (session.noteEnd loop).frame.loops.drop 1 } } := by
  simp only [finishLoop, bind, EStateM.bind, EStateM.get_apply, found, EStateM.modify_apply]
  rfl

end Flow

theorem Run.deeper_eq {α : Type} (calls : Nat) (program : Run σ α) (session : Session σ) :
    Run.deeper calls program session =
      if Run.callLimit < session.depth + calls then .error .exhausted session
      else
        match program { session with depth := session.depth + calls } with
        | .ok value after => .ok value { after with depth := session.depth }
        | .error exit after => .error exit { after with depth := session.depth } := by
  by_cases limit : Run.callLimit < session.depth + calls
  · simp [Run.deeper, limit, bind, EStateM.bind, EStateM.get_apply, EStateM.throw_apply]
  · simp only [Run.deeper, limit, bind, EStateM.bind, EStateM.get_apply, if_false, EStateM.modify_apply, Run.always,
      Run.attempt, pure]
    cases program { session with depth := session.depth + calls } <;> rfl

theorem Run.deeper_ok {α : Type} {calls : Nat} {program : Run σ α} {session after : Session σ} {value : α}
    (room : session.depth + calls ≤ Run.callLimit)
    (ran : program { session with depth := session.depth + calls } = .ok value after) :
    Run.deeper calls program session = .ok value { after with depth := session.depth } := by
  rw [deeper_eq, if_neg (by omega), ran]

theorem Interpreter.emit_heard {event : Text} {args : List Text}
    (heard : (env.services.emit event args session.host).1.result = .ok ()) :
    emit env event args session =
      .ok ()
        { session with
          store := session.store.setAll (env.services.emit event args session.host).1.writes
          host := (env.services.emit event args session.host).2 } := by
  simp only [emit, Run.askSetting, Run.consult, bind, EStateM.bind, EStateM.modify_apply, pure, EStateM.pure, heard]

theorem Interpreter.collect_counted (exec : Text → Run σ Unit) (line : Text) (session : Session σ) :
    collect env exec line session =
      (match (session.frame.blocks.track line).2 with
        | .error error => Run.fail (.flow error)
        | .ok true => Flow.endLoop env (runLine env exec)
        | .ok false => Run.modifyFrame (·.modifyLoop fun loop =>
            { loop with lines := loop.lines ++ [⟨line, session.frame.line⟩] }) : Run σ Unit)
        { session with frame := { session.frame with blocks := (session.frame.blocks.track line).1 } } := rfl

end CommandScript
