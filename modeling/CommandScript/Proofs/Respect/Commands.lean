import CommandScript.Proofs.Respect.Evaluation

/-! Commands that respect every relation that agrees on all but the frames: those that set variables,
print, write files and hand lines to the host, the sources of loops, and, if related sessions also have
the same places in the same scripts, events and reports. -/

namespace CommandScript

variable {σ α : Type} {R : Session σ → Session σ → Prop}

open Run

namespace Session

theorem write_output {session : Session σ} (text : Text) (closed : session.printFile = none) :
    session.write text = .ok { session with output := session.output.push text } := by
  unfold write
  split
  · simp_all
  · rfl

theorem write_file {session : Session σ} {handle : Handle} (text : Text)
    (opened : session.printFile = some handle) :
    session.write text = (encodeWhole text).map fun bytes =>
      { session with
        printFile := some (handle.writeText bytes session.files).1
        files := (handle.writeText bytes session.files).2 } := by
  unfold write
  split
  · rename_i found
    obtain rfl : _ = handle := Option.some.inj (found.symm.trans opened)
    cases encodeWhole text <;> rfl
  · simp_all

end Session

namespace Run.Respects

@[grind ←] theorem write (printable : Printable R) (text : Text) :
    Respects R (Run.write text : Run σ Unit) := by
  intro left right related
  change Linked R (EStateM.bind (Run.ofFault (left.write text)) _ left)
    (EStateM.bind (Run.ofFault (right.write text)) _ right)
  have same := printable.printFile related
  cases opened : left.printFile with
  | none =>
      rw [Session.write_output text opened, Session.write_output text (same ▸ opened)]
      exact .ok (printable.output text related)
  | some handle =>
      rw [Session.write_file text opened, Session.write_file text (same ▸ opened),
        ← printable.files related]
      cases encodeWhole text with
      | error fault => exact .error related
      | ok bytes => exact .ok (printable.withPrintFile _ _ related)

@[grind ←] theorem writeLine (printable : Printable R) (text : Text) :
    Respects R (Run.writeLine text : Run σ Unit) := write printable _

theorem closePrint (printable : Printable R) :
    Respects R (modify (·.closePrint) : Run σ Unit) := by
  refine change fun left right related => ?_
  unfold Session.closePrint
  rw [← printable.printFile related, ← printable.files related]
  cases left.printFile with
  | none => exact related
  | some handle => exact printable.withPrintFile _ _ related

theorem closeWrite (printable : Printable R) :
    Respects R (modify (·.closeWrite) : Run σ Unit) := by
  refine change fun left right related => ?_
  unfold Session.closeWrite
  rw [← printable.writeFile related, ← printable.files related]
  cases left.writeFile with
  | none => exact related
  | some handle => exact printable.withWriteFile _ _ related

end Run.Respects

theorem Printable.withFiles (printable : Printable R) {left right : Session σ} (related : R left right)
    (files : FileTree) : R { left with files } { right with files } := by
  have same := printable.withWriteFile left.writeFile files related
  rw [show ({ right with writeFile := left.writeFile, files } : Session σ) = { right with files } by
    rw [printable.writeFile related]] at same
  exact same

namespace FileArguments

theorem target_respects (evaluable : Evaluable R) (env : Env σ) (command rest : Text) :
    Respects R (target env command rest) := by
  refine Respects.bind (Respects.ofExcept _ _) fun given => ?_
  obtain ⟨path, append⟩ := given
  dsimp only
  split
  · exact Respects.bind (Respects.pure _) fun _ => Respects.pure _
  · exact Respects.bind (Respects.readVariable evaluable path) fun _ => Respects.pure _

theorem checkPath_respects (path : Text) : Respects R (checkPath path : Run σ Unit) := by
  unfold checkPath
  grind

theorem openFile_respects (printable : Printable R) (command path : Text) (append : Bool) :
    Respects R (openFile command path append : Run σ Handle) := by
  refine Respects.bind (checkPath_respects path) fun _ => ?_
  refine Respects.read (fun left right related => by rw [printable.files related]) fun session => ?_
  split
  · exact Respects.bind (Respects.change fun _ _ related => printable.withFiles related _) fun _ =>
      Respects.pure _
  · exact Respects.fail _

end FileArguments

namespace Command

@[grind ←] theorem fail_respects (error : CommandError) : Respects R (Command.fail error : Run σ α) :=
  Respects.fail _

theorem require_respects (rest command what : Text) : Respects R (require rest command what : Run σ Unit) :=
  Respects.guard _ _ (Respects.pure _)

theorem runPrint_respects (printable : Printable R) (env : Env σ) (rest : Text) :
    Respects R (runPrint env rest) := by
  refine Respects.bind (require_respects _ _ _) fun _ => ?_
  refine Respects.bind (PrintStyle.render_respects printable.toEvaluable env _ rest) fun text => ?_
  exact Respects.writeLine printable text

theorem runPrintf_respects (printable : Printable R) (env : Env σ) (rest : Text) :
    Respects R (runPrintf env rest) := by
  refine Respects.bind (require_respects _ _ _) fun _ => ?_
  refine Respects.bind (PrintStyle.render_respects printable.toEvaluable env _ rest) fun text => ?_
  refine Respects.read (fun left right related => by rw [printable.printFile related]) fun session => ?_
  split
  · exact Respects.writeLine printable text
  split
  · exact Respects.writeLine printable _
  · exact Respects.write printable text

theorem runSprint_respects (commandable : Commandable R) (env : Env σ) (style : PrintStyle) (rest : Text) :
    Respects R (runSprint env style rest) := by
  refine Respects.bind (require_respects _ _ _) fun _ => Respects.guard _ _ ?_
  refine Respects.bind (PrintStyle.render_respects commandable.toEvaluable env style _) fun text => ?_
  exact Respects.put commandable _ text

theorem runPrintOpen_respects (printable : Printable R) (env : Env σ) (rest : Text) :
    Respects R (runPrintOpen env rest) := by
  refine Respects.bind (FileArguments.target_respects printable.toEvaluable env _ rest) fun given => ?_
  refine Respects.bind (Respects.closePrint printable) fun _ => ?_
  refine Respects.bind (FileArguments.openFile_respects printable _ _ _) fun handle => ?_
  refine Respects.change fun left right related => ?_
  have opened := printable.withPrintFile (some handle) left.files related
  rw [printable.files related] at opened
  simpa only [printable.files related] using opened

theorem runWriteOpen_respects (printable : Printable R) (env : Env σ) (rest : Text) :
    Respects R (runWriteOpen env rest) := by
  refine Respects.bind (FileArguments.target_respects printable.toEvaluable env _ rest) fun given => ?_
  refine Respects.bind (Respects.closeWrite printable) fun _ => ?_
  refine Respects.bind (FileArguments.openFile_respects printable _ _ _) fun handle => ?_
  refine Respects.change fun left right related => ?_
  have opened := printable.withWriteFile (some handle) left.files related
  rw [printable.files related] at opened
  simpa only [printable.files related] using opened

theorem storedName_respects (command rest : Text) : Respects R (storedName command rest : Run σ (Text × Text)) := by
  unfold storedName
  dsimp only
  split
  · exact fail_respects _
  split
  · exact Respects.pure _
  · exact fail_respects _

theorem runSet_respects (commandable : Commandable R) (env : Env σ) (rest : Text) :
    Respects R (runSet env rest) := by
  refine Respects.bind (storedName_respects _ rest) fun given => ?_
  refine Respects.bind (Words.concatenate_respects commandable.toEvaluable env _ _) fun text => ?_
  exact Respects.put commandable _ _

theorem runSetLogical_respects (commandable : Commandable R) (env : Env σ) (rest : Text) :
    Respects R (runSetLogical env rest) := by
  refine Respects.bind (storedName_respects _ rest) fun given => ?_
  refine Respects.bind (Respects.onError (Expr.condition_respects commandable.toEvaluable env _)
    fun _ => fail_respects _) fun flag => ?_
  exact Respects.put commandable _ _

theorem runUnset_respects (commandable : Commandable R) (rest : Text) :
    Respects R (runUnset rest : Run σ Unit) := by
  refine Respects.bind (require_respects _ _ _) fun _ => Respects.forM fun name => ?_
  refine Respects.change fun left right related => ?_
  rw [commandable.store related]
  exact commandable.withStore _ related

theorem runPublish_respects (commandable : Commandable R) (rest : Text) :
    Respects R (runPublish rest : Run σ Unit) := by
  refine Respects.bind (require_respects _ _ _) fun _ => ?_
  refine Respects.read (fun left right related => by rw [commandable.store related]) fun session => ?_
  refine Respects.bind (Respects.ofStore _) fun store => ?_
  exact Respects.change fun left right related => commandable.withStore store related

theorem runShell_respects (printable : Printable R) (env : Env σ) (command : Text) :
    Respects R (runShell env command) := by
  refine Respects.bind (require_respects _ _ _) fun _ => ?_
  have reports (errors : Text) : Respects R (do
      if !errors.isEmpty then Run.report (errors.reverse.dropWhile (· = .char '\n')).reverse : Run σ Unit) := by
    split
    · exact Respects.report printable _
    · exact Respects.pure _
  split
  · exact fail_respects _
  · exact Respects.throw _
  · dsimp only
    split
    · exact Respects.bind (Respects.write printable _) fun _ => reports _
    · exact reports _

theorem runSystem_respects (printable : Printable R) (env : Env σ) (rest : Text) :
    Respects R (runSystem env rest) := by
  refine Respects.bind (require_respects _ _ _) fun _ => ?_
  refine Respects.bind (Words.substitute_respects printable.toEvaluable env rest) fun text => ?_
  exact runShell_respects printable env _

theorem pause_respects (evaluable : Evaluable R) (env : Env σ) (milliseconds : Int) :
    Respects R (pause env milliseconds) := by
  unfold pause
  split
  · exact Respects.ofFault _
  · intro left right related
    dsimp only
    rw [← evaluable.host related]
    split
    · exact .ok (evaluable.withHost _ related)
    · exact .error (evaluable.withHost _ related)

theorem runWait_respects (printable : Printable R) (env : Env σ) (rest : Text) :
    Respects R (runWait env rest) := by
  refine Respects.bind (require_respects _ _ _) fun _ => ?_
  refine Respects.bind (Words.substitute_respects printable.toEvaluable env rest) fun text => ?_
  refine Respects.bind (Respects.ofFault _) fun milliseconds => ?_
  split
  · exact pause_respects printable.toEvaluable env _
  · exact fail_respects _

theorem assign_respects (commandable : Commandable R) (env : Env σ) (line : Text) :
    Respects R (assign env line) := by
  unfold assign
  split
  · exact Respects.pure _
  dsimp only
  split
  · exact Respects.pure _
  have stores (name value : Text) : Respects R (do
      let shown ← Run.ofFault (← Expr.valueOf env value).render
      if !Number.isNumber shown then Command.fail (.name "assignment" (.notANumber shown))
      Run.put name shown
      return true : Run σ Bool) := by
    refine Respects.bind (Expr.valueOf_respects commandable.toEvaluable env value) fun found => ?_
    refine Respects.bind (Respects.ofFault _) fun shown => Respects.guard _ _ ?_
    exact Respects.bind (Respects.put commandable name shown) fun _ => Respects.pure _
  split
  · refine Respects.bind (fail_respects _) fun _ => Respects.guard _ _ ?_
    exact Respects.guard _ _ (stores _ _)
  · refine Respects.bind (Respects.pure _) fun _ => Respects.guard _ _ ?_
    exact Respects.guard _ _ (stores _ _)

theorem dispatch_respects (printable : Printable R) (env : Env σ) (line : Text) :
    Respects R (dispatch env line) := by
  refine Respects.guard _ _ ?_
  refine Respects.bind (Words.substitute_respects printable.toEvaluable env _) fun text => ?_
  refine Respects.bind (Respects.askOr printable.toEvaluable _ _) fun result => ?_
  split
  · exact fail_respects _
  · split
    · exact fail_respects _
    · exact fail_respects _
  · split
    · exact Respects.writeLine printable _
    · exact Respects.pure _

end Command

end CommandScript
