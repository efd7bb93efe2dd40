import CommandScript.Proofs.Respect.Commands

/-! Statements that leave the flow of control alone, conditions, the sources of loops, events and
reports. Related sessions have to be at the same places of the same scripts only where a place is
shown. -/

namespace CommandScript

variable {σ α : Type} {R : Session σ → Session σ → Prop}

open Run

def Frame.trace (frame : Frame) : Option Text × Nat × Text := (frame.path, frame.line, frame.statement)

/-- As `Commandable`, for programs that report where they are. -/
structure Traceable (R : Session σ → Session σ → Prop) : Prop extends Commandable R where
  frame {left right} : R left right → left.frame.trace = right.frame.trace
  callers {left right} : R left right → left.callers.map Frame.trace = right.callers.map Frame.trace

/-- As `Commandable`, for programs that open and close loops. -/
structure Notable (R : Session σ → Session σ → Prop) : Prop extends Commandable R where
  loopCount {left right} : R left right → left.loopCount = right.loopCount
  withLoopCount {left right} (loopCount : Nat) :
    R left right → R { left with loopCount } { right with loopCount }
  note {left right} (loop : Loop) (step : LoopStep) : R left right → R (left.note loop step) (right.note loop step)

/-- One session, with a property. A program that respects it for every such property keeps the property. -/
def SameWith (P : Session σ → Prop) (left right : Session σ) : Prop := left = right ∧ P left

namespace SameWith

variable {P : Session σ → Prop}

/-- The property is one of the frames of a session and of what has become of its loops. -/
def Positional (P : Session σ → Prop) : Prop :=
  ∀ ⦃before after : Session σ⦄, P before → after.frame = before.frame → after.callers = before.callers →
    after.loopCount = before.loopCount → after.history = before.history → P after

theorem traceable (positional : Positional P) : Traceable (SameWith P) where
  store := by rintro _ _ ⟨rfl, _⟩; rfl
  buffers := by rintro _ _ ⟨rfl, _⟩; rfl
  depth := by rintro _ _ ⟨rfl, _⟩; rfl
  writeFile := by rintro _ _ ⟨rfl, _⟩; rfl
  files := by rintro _ _ ⟨rfl, _⟩; rfl
  host := by rintro _ _ ⟨rfl, _⟩; rfl
  withDepth := by rintro _ _ _ ⟨rfl, holds⟩; exact ⟨rfl, positional holds rfl rfl rfl rfl⟩
  withHost := by rintro _ _ _ ⟨rfl, holds⟩; exact ⟨rfl, positional holds rfl rfl rfl rfl⟩
  writeBytes := by
    rintro left _ bytes ⟨rfl, holds⟩
    refine ⟨rfl, positional holds ?_ ?_ ?_ ?_⟩
    all_goals cases written : left.writeFile <;> simp only [Session.writeBytes, written]
  printFile := by rintro _ _ ⟨rfl, _⟩; rfl
  withStore := by rintro _ _ _ ⟨rfl, holds⟩; exact ⟨rfl, positional holds rfl rfl rfl rfl⟩
  report := by rintro _ _ _ ⟨rfl, holds⟩; exact ⟨rfl, positional holds rfl rfl rfl rfl⟩
  output := by rintro _ _ _ ⟨rfl, holds⟩; exact ⟨rfl, positional holds rfl rfl rfl rfl⟩
  withPrintFile := by rintro _ _ _ _ ⟨rfl, holds⟩; exact ⟨rfl, positional holds rfl rfl rfl rfl⟩
  withWriteFile := by rintro _ _ _ _ ⟨rfl, holds⟩; exact ⟨rfl, positional holds rfl rfl rfl rfl⟩
  frame := by rintro _ _ ⟨rfl, _⟩; rfl
  callers := by rintro _ _ ⟨rfl, _⟩; rfl

/-- The property is one of the frames alone, so that loops may be counted and noted. -/
theorem notable (frames : ∀ ⦃before after : Session σ⦄, P before → after.frame = before.frame →
    after.callers = before.callers → P after) : Notable (SameWith P) where
  toCommandable := (traceable fun _ _ holds frame callers _ _ => frames holds frame callers).toCommandable
  loopCount := by rintro _ _ ⟨rfl, _⟩; rfl
  withLoopCount := by rintro _ _ _ ⟨rfl, holds⟩; exact ⟨rfl, frames holds rfl rfl⟩
  note := by rintro _ _ _ _ ⟨rfl, holds⟩; exact ⟨rfl, frames holds rfl rfl⟩

end SameWith

namespace Flow

theorem askSource_respects (commandable : Commandable R) (env : Env σ) (verb : SourceVerb)
    (qualifier : Option Text) (type name : Text) : Respects R (askSource env verb qualifier type name) := by
  refine Respects.bind (Respects.askSetting commandable _) fun reply => ?_
  split
  · exact Respects.pure _
  · split
    · exact Respects.fail _
    · exact Respects.throw _
  · exact Respects.fail _

theorem rangeBound_respects (evaluable : Evaluable R) (env : Env σ) (bound : Bound) (text : Text) :
    Respects R (rangeBound env bound text) := by
  refine Respects.bind (Expr.evaluate_respects evaluable env text false) fun outcome => ?_
  extract_lets given
  have settles (result : Option Int) : Respects R (given result) := by
    cases result with
    | some n => exact Respects.pure n
    | none =>
        dsimp only [given]
        split <;> exact Respects.fail _
  split
  · exact Respects.bind (Respects.ofFault _) settles
  · exact Respects.bind (Respects.pure _) settles

theorem bindFields_respects (commandable : Commandable R) (name : Text) :
    Respects R (bindFields name : Run σ Loop) := by
  refine Respects.bind (Respects.readVariable commandable.toEvaluable name) fun stored => ?_
  split
  · exact Respects.fail _
  · dsimp only
    split
    · exact Respects.bind (Respects.put commandable _ _) fun _ => Respects.pure _
    · exact Respects.pure _

theorem bindFirst_respects (commandable : Commandable R) (env : Env σ) (header : LoopHeader) :
    Respects R (bindFirst env header) := by
  cases header with
  | range name first last =>
      refine Respects.bind (rangeBound_respects commandable.toEvaluable env _ first) fun start => ?_
      refine Respects.bind (rangeBound_respects commandable.toEvaluable env _ last) fun stop => ?_
      dsimp only
      split
      · exact Respects.bind (Respects.put commandable _ _) fun _ => Respects.pure _
      · exact Respects.pure _
  | list name literal =>
      cases literal with
      | none =>
          rw [bindFirst_stored]
          exact bindFields_respects commandable name
      | some text =>
          rw [bindFirst_literal]
          exact Respects.bind (Respects.put commandable _ _) fun _ => bindFields_respects commandable name
  | external name qualifier type =>
      refine Respects.bind (askSource_respects commandable env _ _ _ _) fun answer => ?_
      split
      · exact Respects.pure _
      · exact Respects.pure _
      · exact Respects.fail _
      · exact Respects.fail _

theorem openLoop_respects (notable : Notable R) (env : Env σ) (header : LoopHeader) :
    Respects R (openLoop env header) := by
  refine Respects.bind (bindFirst_respects notable.toCommandable env header) fun loop => ?_
  refine Respects.read (fun left right related => by rw [notable.loopCount related]) fun session => ?_
  refine Respects.bind (Respects.change fun left right related => ?_) fun _ => Respects.pure _
  rw [notable.loopCount related]
  exact notable.withLoopCount _ (notable.note _ _ related)

theorem giveBack_respects (commandable : Commandable R) (env : Env σ) (loop : Loop) :
    Respects R (giveBack env loop) := by
  unfold giveBack
  split
  · exact Respects.put commandable _ _
  · exact Respects.pure _
  · exact Respects.bind (askSource_respects commandable env _ _ _ _) fun _ => Respects.pure _

theorem closeLoop_respects (notable : Notable R) (env : Env σ) (loop : Loop) : Respects R (closeLoop env loop) :=
  Respects.bind (Respects.change fun _ _ related => notable.note _ _ related)
    fun _ => giveBack_respects notable.toCommandable env loop

end Flow

namespace Report

theorem frameLines_trace {left right : Frame} (same : left.trace = right.trace) (index : Nat) :
    frameLines index left = frameLines index right := by
  simp only [Frame.trace, Prod.mk.injEq] at same
  simp only [frameLines, Frame.fileName, same]

theorem frameDocument_trace {left right : Frame} (same : left.trace = right.trace) (index : Nat) :
    frameDocument index left = frameDocument index right := by
  simp only [Frame.trace, Prod.mk.injEq] at same
  simp only [frameDocument, Frame.fileName, same]

theorem mapIdx_trace {view : Nat → Frame → α}
    (shows : ∀ {left right : Frame}, left.trace = right.trace → ∀ index, view index left = view index right)
    {left right : List Frame} (same : left.map Frame.trace = right.map Frame.trace) :
    left.mapIdx view = right.mapIdx view := by
  refine List.ext_getElem (by simpa using congrArg List.length same) fun index before after => ?_
  simp only [List.length_mapIdx] at before after
  rw [List.getElem_mapIdx, List.getElem_mapIdx]
  refine shows ?_ index
  have traced : (left.map Frame.trace)[index]? = (right.map Frame.trace)[index]? := by rw [same]
  simpa [List.getElem?_map, before, after] using traced

theorem frames_trace (traceable : Traceable R) {left right : Session σ} (related : R left right) :
    left.frames.map Frame.trace = right.frames.map Frame.trace := by
  simp only [Session.frames, List.map_append, List.map_reverse, List.map_cons, List.map_nil,
    traceable.callers related, traceable.frame related]

theorem add_respects (traceable : Traceable R) (env : Env σ) (error : ScriptError) :
    Respects R (Report.add env error) := by
  have commandable := traceable.toCommandable
  refine Respects.read (fun left right related => ?_) fun session => ?_
  · have same := frames_trace traceable related
    simp only [Report.text, Report.document, commandable.store related,
      mapIdx_trace frameLines_trace same, mapIdx_trace frameDocument_trace same]
  · refine Respects.bind (Respects.report commandable.toPrintable _) fun _ => ?_
    split
    · exact Respects.report commandable.toPrintable _
    · exact Respects.pure _

end Report

namespace Interpreter

theorem emit_respects (traceable : Traceable R) (env : Env σ) (event : Text) (args : List Text) :
    Respects R (emit env event args) := by
  refine Respects.bind (Respects.askSetting traceable.toCommandable _) fun reply => ?_
  split
  · exact Respects.pure _
  · exact Respects.throw _
  · refine Respects.read (fun left right related => ?_) fun session => Respects.throw _
    have same := traceable.frame related
    simp only [Frame.trace, Prod.mk.injEq] at same
    simp only [Frame.place, Frame.fileName, same]

theorem decideCondition_respects (evaluable : Evaluable R) (env : Env σ) (word : ConditionWord) (text : Text) :
    Respects R (decideCondition env word text) := by
  refine Respects.onError (Expr.condition_respects evaluable env text) fun error => ?_
  split
  · exact Respects.fail _
  · exact Respects.throw _

end Interpreter

/-- Commands that leave the flow of control, the aliases and the frames alone. -/
def Command.isPlain : Command → Bool
  | addAlias | removeAlias | parse | parseString | leaveFile | quit | relativePaths | leaveLoop => false
  | _ => true

namespace Interpreter

/-- Statements that leave the flow of control alone: commands of that kind, calls of functions that
write, assignments, and lines for the shell and the host. -/
def isPlain (line : Text) : Bool :=
  !Flow.isForeach line && !Flow.isEndfor line &&
    (line.head? = some (.char '!') || ((Command.of? (Text.cutOrAll ' ' line).1).all Command.isPlain))

theorem runCommand_respects (commandable : Commandable R) (env : Env σ) (exec : Text → Run σ Unit)
    {command : Command} (plain : command.isPlain) (rest : Text) :
    Respects R (runCommand env exec command rest) := by
  cases command with
  | addAlias | removeAlias | parse | parseString | leaveFile | quit | relativePaths | leaveLoop =>
      simp [Command.isPlain] at plain
  | print => exact Command.runPrint_respects commandable.toPrintable env rest
  | printf => exact Command.runPrintf_respects commandable.toPrintable env rest
  | sprint => exact Command.runSprint_respects commandable env _ rest
  | sprintf => exact Command.runSprint_respects commandable env _ rest
  | printOpen => exact Command.runPrintOpen_respects commandable.toPrintable env rest
  | printClose => exact Respects.closePrint commandable.toPrintable
  | writeOpen => exact Command.runWriteOpen_respects commandable.toPrintable env rest
  | writeClose => exact Respects.closeWrite commandable.toPrintable
  | set => exact Command.runSet_respects commandable env rest
  | setLogical => exact Command.runSetLogical_respects commandable env rest
  | unset => exact Command.runUnset_respects commandable rest
  | publish => exact Command.runPublish_respects commandable rest
  | system => exact Command.runSystem_respects commandable.toPrintable env rest
  | wait => exact Command.runWait_respects commandable.toPrintable env rest

theorem runStatement_respects (commandable : Commandable R) (env : Env σ) (exec : Text → Run σ Unit)
    {line : Text} (plain : isPlain line) : Respects R (runStatement env exec line) := by
  simp only [isPlain, Bool.and_eq_true, Bool.not_eq_true', Bool.or_eq_true, decide_eq_true_eq] at plain
  obtain ⟨⟨notForeach, notEndfor⟩, kind⟩ := plain
  unfold runStatement
  simp only [notForeach, notEndfor, Bool.false_eq_true, ↓reduceIte]
  by_cases shell : line.head? = some (.char '!')
  · rw [if_pos shell]
    exact Command.runShell_respects commandable.toPrintable env _
  · rw [if_neg shell]
    have known := kind.resolve_left shell
    cases found : Command.of? (Text.cutOrAll ' ' line).1 with
    | some command =>
        rw [found] at known
        exact runCommand_respects commandable env exec known _
    | none =>
        dsimp only
        split
        · exact Respects.bind (Expr.valueOf_respects commandable.toEvaluable env line) fun _ => Respects.pure _
        · refine Respects.bind (Command.assign_respects commandable env line) fun assigned => ?_
          split
          · exact Command.dispatch_respects commandable.toPrintable env line
          · exact Respects.pure _

end Interpreter

end CommandScript
