import CommandScript.Proofs.Integers.Evaluation
import CommandScript.Proofs.Integers.Lines

/-! A line that assigns a formula, run by a session without a host. The line reaches the assignment through the
statement splitter, the conditional stack and the table of commands; what becomes of it is what becomes of the
formula's value. -/

namespace CommandScript

variable {σ : Type}

theorem Expr.valueOf_parsed {text : Text} {e : Expr} (trimmed : Text.trim text = text)
    (noNumber : Number.isNumber text = false) (noTruth : ¬(Text.lower text = "true" ∨ Text.lower text = "false"))
    (parsed : parse text = .ok e) (env : Env σ) (session : Session σ) :
    valueOf env text session =
      if Run.callLimit < session.depth + e.callsNeeded then .error .exhausted session
        else eval env false e session := by
  have read : Expr.read text session = Run.deeper e.callsNeeded (pure e) session := by
    simp only [Expr.read, parsed]
    rfl
  rw [Run.deeper_eq] at read
  by_cases limit : Run.callLimit < session.depth + e.callsNeeded
  · rw [if_pos limit] at read ⊢
    simp only [valueOf, trimmed, noNumber, if_neg noTruth, Bool.false_eq_true, if_false, bind, EStateM.bind, read]
  · rw [if_neg limit] at read ⊢
    simp only [valueOf, trimmed, noNumber, if_neg noTruth, Bool.false_eq_true, if_false, bind, EStateM.bind, read]
    rfl

namespace Formula

variable {bound : Option Level}

theorem text_expression {e : Formula bound} (compound : e.numeral? = none) :
    Number.isNumber e.text = false ∧ ¬(Text.lower e.text = "true" ∨ Text.lower e.text = "false") := by
  rcases text_compound compound with ⟨identifier, same⟩ | blank
  · rw [same]
    refine ⟨?_, identifier.notTruth⟩
    rw [Number.isNumber, identifier.parseDecimal]
    rfl
  · refine ⟨Number.isNumber_foreign (by decide) e.trim_text blank, ?_⟩
    have lowered : .char ' ' ∈ Text.lower e.text := by
      rw [Text.lower_map fun c member => isFormulaMark_ascii (e.text_marks c member)]
      exact List.mem_map.mpr ⟨' ', blank, by decide⟩
    rintro (same | same)
    · rw [same] at lowered
      exact absurd lowered (by decide)
    · rw [same] at lowered
      exact absurd lowered (by decide)

def expr (e : Formula (some .logic)) : Expr := e.tree (e.front = some .minus)

theorem valueOf_compound {e : Formula (some .logic)} (compound : e.numeral? = none) (env : Env σ)
    (session : Session σ) :
    Expr.valueOf env e.text session =
      if Run.callLimit < session.depth + e.expr.callsNeeded then .error .exhausted session
      else Expr.eval env false e.expr session :=
  Expr.valueOf_parsed e.trim_text (text_expression compound).1 (text_expression compound).2 e.parse_text env session

theorem valueOf_numeral {e : Formula (some .logic)} {numeral : Numeral} (alone : e.numeral? = some numeral)
    (env : Env σ)
    (session : Session σ) : Expr.valueOf env e.text session = .ok (.text numeral.digits) session := by
  have number : Number.isNumber numeral.digits = true := numeral.isNumber false
  have trimmed : Text.trim numeral.digits = numeral.digits := numeral.trim_withSign false
  simp only [Expr.valueOf, text_numeral alone, trimmed, number]
  rfl

end Formula

namespace Assignment

variable (line : Assignment) {env : Env σ} {session : Session σ}

theorem assign_eq (env : Env σ) (session : Session σ) :
    Command.assign env line.text session =
      (do
        let shown ← Run.ofFault (← Expr.valueOf env line.formula.text).render
        if !Number.isNumber shown then Command.fail (.name "assignment" (.notANumber shown))
        Run.put line.target.text shown
        return true) session := by
  obtain ⟨c, after, starts, -⟩ := line.formula.text_first
  have white : Text.isBlank ' ' = true := by decide
  have value : Text.trim (.char ' ' :: line.formula.text) = line.formula.text := by
    rw [Text.trim, Text.trimLeft, List.dropWhile_cons_of_pos white]
    exact line.formula.trim_text
  have noDot : line.target.text.contains '.' = false := by
    rw [Bool.eq_false_iff]
    intro dotted
    exact absurd (line.target.mark (List.contains_iff_mem.mp dotted)) (by decide)
  have filled : line.formula.text.isEmpty = false := by rw [starts]; rfl
  have noQuote : line.formula.text.head?.any Quote.isOpening = false := by
    have plain := line.formula.text_unquoted c (by simp [starts])
    simp [starts, Quote.isOpening, plain]
  simp only [Command.assign, line.splitAssignment?, value, noDot, line.checkAssigned, filled, noQuote]
  rfl

theorem assign_ok {value : Value} {shown : Text}
    (evaluated : Expr.valueOf env line.formula.text session = .ok value session) (rendered : value.render = .ok shown)
    (number : Number.isNumber shown) :
    Command.assign env line.text session = .ok true (session.put line.target.text shown) := by
  rw [assign_eq]
  simp only [bind, EStateM.bind, evaluated, Run.ofFault, Run.ofExcept, rendered, pure, EStateM.pure, number]
  rfl

theorem assign_error {exit : Exit} (failed : Expr.valueOf env line.formula.text session = .error exit session) :
    Command.assign env line.text session = .error exit session := by
  rw [assign_eq]
  simp only [bind, EStateM.bind, failed]

theorem assign_digits {n : Int} (evaluated : Expr.valueOf env line.formula.text session = .ok (.int n) session)
    (large : ¬n.natAbs < Number.integerLimit) :
    Command.assign env line.text session = .error (.fault .digits) session := by
  have rendered : (Value.int n).render = .error .digits := by
    rw [Value.render, Number.integerText, if_neg large]
  rw [assign_eq]
  simp only [bind, EStateM.bind, evaluated, Run.ofFault, rendered]
  rfl

theorem statement_eq (exec : Text → Run σ Unit) (noLoops : session.frame.loops = [])
    (noConditions : session.frame.conditions = []) (noAliases : session.frame.aliases = []) :
    Interpreter.statement env exec line.text session =
      (do if !(← Command.assign env line.text) then Command.dispatch env line.text) session := by
  have filled : line.text.isEmpty = false := by simp [text_eq]
  have noAlias : (if Interpreter.keepsAliases line.text then line.text
      else AliasTable.apply session.frame.aliasTables line.text) = line.text := by
    split
    · rfl
    · simp [Frame.aliasTables, noAliases, noLoops, AliasTable.apply]
  have passed : Interpreter.passConditions env false line.text session = .ok false session := by
    simp only [Interpreter.passConditions, bind, EStateM.bind, EStateM.get_apply, noConditions,
      line.judge]
    rfl
  have runs : Interpreter.runStatement env exec line.text =
      (do if !(← Command.assign env line.text) then Command.dispatch env line.text) := by
    have noShell : line.text.head? ≠ some (.char '!') := by
      obtain ⟨c, rest, same, word, -⟩ := line.target.cons
      rw [text_eq, same]
      rintro ⟨⟩
      exact absurd word (by decide)
    simp only [Interpreter.runStatement, line.isForeach, Flow.isEndfor, @isWordLine line "endfor" (by decide),
      if_neg noShell,
      line.word, line.target.noCommand, line.isWriteCall]
    rfl
  simp only [Interpreter.statement, line.noComment, line.trim, filled, line.balanced, Bool.false_eq_true,
    if_false, bind,
    EStateM.bind, EStateM.get_apply, Run.ofMalformed, Run.ofExcept, pure, EStateM.pure, noLoops,
    noAlias, List.head?_nil, Option.any_none, passed, runs]
  rfl

theorem execLine_eq (depth : Nat) (noLoops : session.frame.loops = []) (noConditions : session.frame.conditions = [])
    (noAliases : session.frame.aliases = []) :
    Interpreter.execLine env (depth + 1) line.text session =
      (do if !(← Command.assign env line.text) then Command.dispatch env line.text) session := by
  rw [← line.statement_eq (Interpreter.execLine env depth) noLoops noConditions noAliases]
  simp only [Interpreter.execLine, line.single, Interpreter.statements, bind, EStateM.bind, Run.ofMalformed,
    Run.ofExcept,
    pure, EStateM.pure, List.forM_eq_forM, List.forM_cons, List.forM_nil]
  cases Interpreter.statement env (Interpreter.execLine env depth) line.text session <;> rfl

end Assignment

def Session.inLine (session : Session σ) (text : Text) : Session σ :=
  { session with
    frame := { session.frame with line := session.frame.line + 1, statement := text }
    depth := 8 }

namespace Interpreter

theorem emit_alone {env : Env σ} (alone : env.services = {}) (event : Text) (args : List Text) (session : Session σ) :
    emit env event args session = .ok () session := by
  have silent : env.services.emit event args session.host = ({ result := .ok () }, session.host) := by
    rw [alone]
    rfl
  rw [emit_heard (by rw [silent]), silent]
  rfl

def placed (text : Text) : EStateM.Result Exit (Session σ) Unit → EStateM.Result Exit (Session σ) Unit
  | .ok () after => .ok () after
  | .error (.error error) after => .error (.error (locate after.frame text error)) after
  | .error exit after => .error exit after

theorem runLine_alone {env : Env σ} (alone : env.services = {}) (exec : Text → Run σ Unit) (text : Text)
    (session : Session σ) :
    runLine env exec text session =
      placed text (exec text { session with frame := { session.frame with statement := text } }) := by
  have handled : Run.onError (exec text) (fun error => do
        let error := locate (← get).frame text error
        emit env "on_error" [error.kind.label]
        throw (.error error)) { session with frame := { session.frame with statement := text } } =
      placed text (exec text { session with frame := { session.frame with statement := text } }) := by
    generalize { session with frame := { session.frame with statement := text } } = started
    cases ended : exec text started with
    | ok value after => simp [Run.onError, Run.attempt, ended, bind, EStateM.bind, pure, EStateM.pure, placed]
    | error exit after =>
        cases exit with
        | error error =>
            simp only [Run.onError, Run.attempt, ended, bind, EStateM.bind, EStateM.get_apply,
              emit_alone alone, placed]
            rfl
        | returned | stopped | fault | exhausted =>
            simp only [Run.onError, Run.attempt, ended, bind, EStateM.bind, placed]
            rfl
  simp only [runLine, Run.modifyFrame, EStateM.modify_apply, bind, EStateM.bind,
    emit_alone alone] at handled ⊢
  rw [handled]
  cases placed text _ <;> rfl

def answered (env : Env σ) : EStateM.Result Exit (Session σ) Unit → EStateM.Result Exit (Session σ) Bool
  | .ok () after => .ok true { after with depth := 0 }
  | .error (.error error) after => (do Report.add env error; return false) { after with depth := 0 }
  | .error (.stopped code) after => .ok false (Session.stop { after with depth := 0 } code)
  | .error exit after => .error exit { after with depth := 0 }

theorem parseLine_eq {env : Env σ} (alone : env.services = {}) (depth : Nat) (text : Text) {session : Session σ}
    (running : session.stopped = false) (top : session.callers = []) (shallow : session.depth = 0) :
    parseLine env depth text session =
      answered env (placed text (execLine env depth text (session.inLine text))) := by
  generalize started : session.modifyRoot (fun root => { root with line := root.line + 1 }) = counted
  have opened : counted.depth = 0 ∧ { counted with
      frame := { counted.frame with statement := text }, depth := 8 } = session.inLine text := by
    subst started
    simp [Session.modifyRoot, Session.inLine, top, shallow]
  have within := Run.deeper_eq 8 (runLine env (execLine env depth) text) counted
  rw [if_neg (by rw [opened.1]; decide), runLine_alone alone, opened.1, opened.2] at within
  simp only [parseLine, bind, EStateM.bind, EStateM.get_apply, running, Bool.false_eq_true, if_false,
    EStateM.modify_apply, started, Run.attempt, within]
  rcases placed text (execLine env depth text (session.inLine text)) with ⟨value, after⟩ | ⟨exit, after⟩
  · rfl
  · cases exit <;> rfl

end Interpreter

end CommandScript
