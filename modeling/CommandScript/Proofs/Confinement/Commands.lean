import CommandScript.Proofs.Confinement.Evaluation
import CommandScript.Proofs.Respect.Statements

/-! Commands that do not run further lines are confined, and so are the sources of loops. Those that are not about
aliases, loops, conditions and script paths leave the frame of the running script alone, too. They leave by script
errors, faults and the bound on nesting, and `quit` and `return` by exits of their own. -/

namespace CommandScript

variable {σ α : Type} {Inv : Session σ → Prop} {around : Surroundings} {leaves : Exit → Prop}
  [plain : Exit.Plain leaves]

open Run

namespace Session

theorem write_local {session after : Session σ} {text : Text} (written : session.write text = .ok after) :
    session.Local after := by
  unfold write at written
  split at written
  · rename_i handle opened
    cases encoded : encodeWhole text with
    | ok bytes =>
        rw [encoded] at written
        cases written
        exact ⟨rfl, rfl, rfl, rfl⟩
    | error fault =>
        rw [encoded] at written
        cases written
  · cases written
    exact ⟨rfl, rfl, rfl, rfl⟩

theorem closePrint_local (session : Session σ) : session.Local session.closePrint := by
  unfold closePrint
  split <;> exact ⟨rfl, rfl, rfl, rfl⟩

theorem closeWrite_local (session : Session σ) : session.Local session.closeWrite := by
  unfold closeWrite
  split <;> exact ⟨rfl, rfl, rfl, rfl⟩

theorem stop_local (session : Session σ) (code : Int) : session.Local (session.stop code) := by
  let ended : Session σ := { session with stopped := true, exitCode := code }
  have prints : ended.Local ended.closePrint := ended.closePrint_local
  have writes : ended.closePrint.Local (session.stop code) := ended.closePrint.closeWrite_local
  exact ⟨writes.frame.trans prints.frame, writes.callers.trans prints.callers, writes.scopes.trans prints.scopes,
    writes.host.trans prints.host⟩

end Session

namespace Run.Keeps

theorem write [stable : Session.Stable Inv] (text : Text) : Keeps Inv leaves (Run.write text : Run σ Unit) := by
  intro session holds
  change Kept Inv leaves (EStateM.bind (Run.ofFault (session.write text)) _ session)
  cases written : session.write text with
  | ok after => exact .ok (stable.within holds (Session.write_local written))
  | error fault => exact .error holds (plain.fault fault)

theorem writeLine [Session.Stable Inv] (text : Text) : Keeps Inv leaves (Run.writeLine text : Run σ Unit) := write _

end Run.Keeps

namespace PrintStyle

theorem valueText_confined (env : Env σ) [Session.Stable Inv] [env.Insulates Inv]
    (style : PrintStyle) (expression : Text) : Keeps Inv leaves (style.valueText env expression) := by
  refine Keeps.bind (Expr.evaluate_confined env expression false) fun outcome => ?_
  exact Keeps.guard _ _ (Keeps.guard _ _ (Keeps.pure _))

theorem formatValue_confined (value format command : Text) :
    Keeps Inv leaves (Run.ofExcept id (Print.formatValue value format command) : Run σ Text) := by
  have known {error : Exit} (failed : Print.formatValue value format command = .error error) : leaves error := by
    have applied {directives : Text} {shown : Number.Shown}
        (broken : Print.applyDirectives command format directives shown = .error error) : leaves error := by
      unfold Print.applyDirectives at broken
      split at broken
      · cases broken
      · cases broken
        exact plain.error _
      · cases broken
        exact plain.fault _
    unfold Print.formatValue at failed
    dsimp only at failed
    repeat' split at failed
    all_goals first
      | exact applied failed
      | (cases failed; done)
      | (cases failed; exact plain.error _)
      | (cases failed; exact plain.fault _)
  cases formatted : Print.formatValue value format command with
  | ok text => exact Keeps.pure text
  | error error => exact Keeps.throw (known formatted)

theorem itemText_confined (env : Env σ) [Session.Stable Inv] [env.Insulates Inv]
    (style : PrintStyle) (item : PrintItem) : Keeps Inv leaves (style.itemText env item) := by
  cases item with
  | literal body => exact Keeps.pure _
  | group expression => exact Keeps.bind (valueText_confined env style expression) fun _ => Keeps.pure _
  | word expression format =>
      refine Keeps.bind (valueText_confined env style expression) fun value => ?_
      cases format with
      | none => exact Keeps.pure _
      | some format =>
          dsimp only
          split
          · exact Keeps.pure _
          · exact Keeps.bind (formatValue_confined value format _) fun _ => Keeps.pure _
  | broken error => exact Keeps.fail _

theorem itemsText_confined (env : Env σ) [Session.Stable Inv] [env.Insulates Inv]
    (style : PrintStyle) (items : List PrintItem) : Keeps Inv leaves (style.itemsText env items) := by
  induction items with
  | nil => exact Keeps.pure _
  | cons item rest ih =>
      refine Keeps.bind (itemText_confined env style item) fun text => ?_
      exact Keeps.bind ih fun _ => Keeps.pure _

theorem render_confined (env : Env σ) [Session.Stable Inv] [env.Insulates Inv] (style : PrintStyle) (text : Text) :
    Keeps Inv leaves (style.render env text) :=
  Keeps.bind (itemsText_confined env style _) fun _ => Keeps.pure _

end PrintStyle

omit plain in
theorem Piece.texts_confined {replace : Text → Run σ Text} (replaced : ∀ word, Keeps Inv leaves (replace word))
    (pieces : List Piece) : Keeps Inv leaves (Piece.texts replace pieces) := by
  induction pieces with
  | nil => exact Keeps.pure _
  | cons piece rest ih =>
      cases piece with
      | verbatim text => exact Keeps.bind ih fun _ => Keeps.pure _
      | word text => exact Keeps.bind (replaced text) fun _ => Keeps.bind ih fun _ => Keeps.pure _

namespace Words

theorem storedWord_confined (env : Env σ) [Session.Stable Inv] [env.Insulates Inv] (command word : Text) :
    Keeps Inv leaves (storedWord env command word) := by
  unfold storedWord
  split
  · exact Keeps.pure _
  refine Keeps.bind (Keeps.ofFault _) fun real => ?_
  split
  · exact Keeps.pure _
  refine Keeps.bind (Expr.evaluate_confined env word false) fun outcome => ?_
  exact Keeps.guard _ _ (Keeps.guard _ _ (Keeps.pure _))

theorem concatenate_confined (env : Env σ) [Session.Stable Inv] [env.Insulates Inv] (command text : Text) :
    Keeps Inv leaves (concatenate env command text) :=
  Piece.texts_confined (storedWord_confined env command) _

theorem argumentWord_confined (env : Env σ) [Session.Stable Inv] [env.Insulates Inv] (word : Text) :
    Keeps Inv leaves (argumentWord env word) := by
  unfold argumentWord
  dsimp only
  split
  · exact Keeps.pure _
  refine Keeps.bind (Keeps.ofFault _) fun real => ?_
  split
  · exact Keeps.pure _
  refine Keeps.onError ?_ (fun error => ?_) fun exit kind _ => kind
  · exact Keeps.bind (Expr.valueOf_confined env word) fun _ => Keeps.ofFault _
  · split
    · exact Keeps.pure _
    · exact Keeps.throw (plain.error _)

theorem substitute_confined (env : Env σ) [Session.Stable Inv] [env.Insulates Inv] (text : Text) :
    Keeps Inv leaves (substitute env text) :=
  Piece.texts_confined (argumentWord_confined env) _

end Words

namespace FileArguments

theorem target_confined (env : Env σ) [Session.Stable Inv] [env.Insulates Inv] (command rest : Text) :
    Keeps Inv leaves (target env command rest) := by
  refine Keeps.bind (Keeps.ofExcept (fun _ => plain.error _) _) fun given => ?_
  obtain ⟨path, append⟩ := given
  dsimp only
  split
  · exact Keeps.bind (Keeps.pure _) fun _ => Keeps.pure _
  · exact Keeps.bind (Keeps.readVariable path) fun _ => Keeps.pure _

theorem checkPath_confined (path : Text) : Keeps Inv leaves (checkPath path : Run σ Unit) :=
  Keeps.check _ (plain.fault _) (Keeps.check _ (plain.fault _) (Keeps.pure _))

theorem openFile_confined [Session.Stable Inv] (command path : Text) (append : Bool) :
    Keeps Inv leaves (openFile command path append : Run σ Handle) := by
  refine Keeps.bind (checkPath_confined path) fun _ => Keeps.read fun session => ?_
  split
  · exact Keeps.bind (Keeps.changeWithin fun _ => ⟨rfl, rfl, rfl, rfl⟩) fun _ => Keeps.pure _
  · exact Keeps.fail _

end FileArguments

namespace Command

theorem fail_confined (error : CommandError) : Keeps Inv leaves (Command.fail error : Run σ α) := Keeps.fail _

theorem require_confined (rest command what : Text) : Keeps Inv leaves (require rest command what : Run σ Unit) :=
  Keeps.guard _ _ (Keeps.pure _)

theorem runAlias_confined (rest : Text) : Confined around leaves (runAlias rest : Run σ Unit) := by
  refine Keeps.read fun session => ?_
  dsimp only
  split
  · have lists : Confined around leaves (session.frame.aliasTables.flatten.forM fun entry =>
        Run.writeLine (entry.name ++ "=" ++ entry.value) : Run σ Unit) :=
      Keeps.forM fun entry => Keeps.writeLine _
    split
    · exact Keeps.bind (Keeps.writeLine _) fun _ => lists
    · exact lists
  · exact Keeps.bind (Keeps.ofExcept (fun _ => plain.error _) _) fun entry => Confined.modifyFrame _

theorem runUnalias_confined (env : Env σ) (rest : Text) : Confined around leaves (runUnalias env rest) := by
  refine Keeps.bind (require_confined _ _ _) fun _ => Keeps.read fun session => ?_
  refine Keeps.forM fun name => Keeps.read fun session => ?_
  refine Keeps.bind (Confined.modifyFrame _) fun _ => ?_
  split
  · exact Keeps.writeLine _
  · exact Keeps.pure _

theorem runPrint_confined (env : Env σ) [Session.Stable Inv] [env.Insulates Inv] (rest : Text) :
    Keeps Inv leaves (runPrint env rest) := by
  refine Keeps.bind (require_confined _ _ _) fun _ => ?_
  exact Keeps.bind (PrintStyle.render_confined env _ rest) fun text => Keeps.writeLine text

theorem runPrintf_confined (env : Env σ) [Session.Stable Inv] [env.Insulates Inv] (rest : Text) :
    Keeps Inv leaves (runPrintf env rest) := by
  refine Keeps.bind (require_confined _ _ _) fun _ => ?_
  refine Keeps.bind (PrintStyle.render_confined env _ rest) fun text => Keeps.read fun session => ?_
  split
  · exact Keeps.writeLine text
  split
  · exact Keeps.writeLine _
  · exact Keeps.write text

theorem runSprint_confined (env : Env σ) [Session.Stable Inv] [env.Insulates Inv] (style : PrintStyle) (rest : Text) :
    Keeps Inv leaves (runSprint env style rest) := by
  refine Keeps.bind (require_confined _ _ _) fun _ => Keeps.guard _ _ ?_
  exact Keeps.bind (PrintStyle.render_confined env style _) fun text => Keeps.put _ text

theorem runPrintOpen_confined (env : Env σ) [Session.Stable Inv] [env.Insulates Inv] (rest : Text) :
    Keeps Inv leaves (runPrintOpen env rest) := by
  refine Keeps.bind (FileArguments.target_confined env _ rest) fun given => ?_
  refine Keeps.bind (Keeps.changeWithin Session.closePrint_local) fun _ => ?_
  refine Keeps.bind (FileArguments.openFile_confined _ _ _) fun handle => ?_
  exact Keeps.changeWithin fun _ => ⟨rfl, rfl, rfl, rfl⟩

theorem runWriteOpen_confined (env : Env σ) [Session.Stable Inv] [env.Insulates Inv] (rest : Text) :
    Keeps Inv leaves (runWriteOpen env rest) := by
  refine Keeps.bind (FileArguments.target_confined env _ rest) fun given => ?_
  refine Keeps.bind (Keeps.changeWithin Session.closeWrite_local) fun _ => ?_
  refine Keeps.bind (FileArguments.openFile_confined _ _ _) fun handle => ?_
  exact Keeps.changeWithin fun _ => ⟨rfl, rfl, rfl, rfl⟩

theorem storedName_confined (command rest : Text) :
    Keeps Inv leaves (storedName command rest : Run σ (Text × Text)) := by
  unfold storedName
  dsimp only
  split
  · exact fail_confined _
  split
  · exact Keeps.pure _
  · exact fail_confined _

theorem runSet_confined (env : Env σ) [Session.Stable Inv] [env.Insulates Inv] (rest : Text) :
    Keeps Inv leaves (runSet env rest) := by
  refine Keeps.bind (storedName_confined _ rest) fun given => ?_
  exact Keeps.bind (Words.concatenate_confined env _ _) fun text => Keeps.put _ _

theorem runSetLogical_confined (env : Env σ) [Session.Stable Inv] [env.Insulates Inv] (rest : Text) :
    Keeps Inv leaves (runSetLogical env rest) := by
  refine Keeps.bind (storedName_confined _ rest) fun given => ?_
  refine Keeps.bind (Keeps.onError (Expr.condition_confined env _) (fun _ => fail_confined _)
    fun exit kind _ => kind) fun flag => ?_
  exact Keeps.put _ _

theorem runUnset_confined [Session.Stable Inv] (rest : Text) : Keeps Inv leaves (runUnset rest : Run σ Unit) := by
  refine Keeps.bind (require_confined _ _ _) fun _ => Keeps.forM fun name => ?_
  exact Keeps.changeWithin fun session => ⟨rfl, rfl, session.store.delete_outer name, rfl⟩

theorem runPublish_confined [stable : Session.Stable Inv] (rest : Text) :
    Keeps Inv leaves (runPublish rest : Run σ Unit) := by
  refine Keeps.bind (require_confined _ _ _) fun _ => ?_
  intro session holds
  change Kept Inv leaves (EStateM.bind (Run.ofStore (session.store.publish rest)) _ session)
  cases published : session.store.publish rest with
  | ok store => exact .ok (stable.within holds ⟨rfl, rfl, by rw [Store.publish_scopes published], rfl⟩)
  | error error => exact .error holds (plain.error _)

theorem runShell_confined (env : Env σ) [Session.Stable Inv] (command : Text) :
    Keeps Inv leaves (runShell env command) := by
  refine Keeps.bind (require_confined _ _ _) fun _ => ?_
  have reports (errors : Text) : Keeps Inv leaves (do
      if !errors.isEmpty then Run.report (errors.reverse.dropWhile (· = .char '\n')).reverse : Run σ Unit) := by
    split
    · exact Keeps.report _
    · exact Keeps.pure _
  split
  · exact fail_confined _
  · exact Keeps.throw (plain.fault _)
  · dsimp only
    split
    · exact Keeps.bind (Keeps.write _) fun _ => reports _
    · exact reports _

theorem runSystem_confined (env : Env σ) [Session.Stable Inv] [env.Insulates Inv] (rest : Text) :
    Keeps Inv leaves (runSystem env rest) := by
  refine Keeps.bind (require_confined _ _ _) fun _ => ?_
  exact Keeps.bind (Words.substitute_confined env rest) fun text => runShell_confined env _

theorem pause_confined (env : Env σ) [insulated : env.Insulates Inv] (milliseconds : Int) :
    Keeps Inv leaves (pause env milliseconds) := by
  unfold pause
  split
  · exact Keeps.ofFault _
  · rename_i handler given
    intro session holds
    have kept := insulated.answers holds (.wait given milliseconds)
    unfold hostAfter at kept
    dsimp only
    generalize handler milliseconds session.host = reply at kept ⊢
    cases reply with
    | ok value host => exact .ok kept
    | error fault host => exact .error kept (plain.fault fault)

theorem runWait_confined (env : Env σ) [Session.Stable Inv] [env.Insulates Inv] (rest : Text) :
    Keeps Inv leaves (runWait env rest) := by
  refine Keeps.bind (require_confined _ _ _) fun _ => ?_
  refine Keeps.bind (Words.substitute_confined env rest) fun text => ?_
  refine Keeps.bind (Keeps.ofFault _) fun milliseconds => ?_
  split
  · exact pause_confined env _
  · exact fail_confined _

theorem runRelativePaths_confined (rest : Text) : Confined around leaves (runRelativePaths rest : Run σ Unit) := by
  unfold runRelativePaths
  split
  · exact Confined.modifyFrame _
  · exact fail_confined _

theorem runLeaveLoop_confined : Confined around leaves (runLeaveLoop : Run σ Unit) :=
  Keeps.read fun _ => Keeps.guard _ _ (Confined.modifyFrame _)

theorem assign_confined (env : Env σ) [Session.Stable Inv] [env.Insulates Inv] (line : Text) :
    Keeps Inv leaves (assign env line) := by
  unfold assign
  split
  · exact Keeps.pure _
  dsimp only
  split
  · exact Keeps.pure _
  have stores (name value : Text) : Keeps Inv leaves (do
      let shown ← Run.ofFault (← Expr.valueOf env value).render
      if !Number.isNumber shown then Command.fail (.name "assignment" (.notANumber shown))
      Run.put name shown
      return true : Run σ Bool) := by
    refine Keeps.bind (Expr.valueOf_confined env value) fun found => ?_
    refine Keeps.bind (Keeps.ofFault _) fun shown => Keeps.guard _ _ ?_
    exact Keeps.bind (Keeps.put name shown) fun _ => Keeps.pure _
  split
  · refine Keeps.bind (fail_confined _) fun _ => Keeps.guard _ _ ?_
    exact Keeps.guard _ _ (stores _ _)
  · refine Keeps.bind (Keeps.pure _) fun _ => Keeps.guard _ _ ?_
    exact Keeps.guard _ _ (stores _ _)

theorem dispatch_confined (env : Env σ) [Session.Stable Inv] [env.Insulates Inv] (line : Text) :
    Keeps Inv leaves (dispatch env line) := by
  refine Keeps.guard _ _ ?_
  refine Keeps.bind (Words.substitute_confined env _) fun text => ?_
  refine Keeps.bind (Keeps.askOr env _ fun _ => .dispatch _) fun result => ?_
  split
  · exact fail_confined _
  · split
    · exact fail_confined _
    · exact fail_confined _
  · split
    · exact Keeps.writeLine _
    · exact Keeps.pure _

end Command

namespace Flow

theorem askSource_confined (env : Env σ) [Session.Stable Inv] [env.Insulates Inv]
    (verb : SourceVerb) (qualifier : Option Text) (type name : Text) :
    Keeps Inv leaves (askSource env verb qualifier type name) := by
  refine Keeps.bind (Keeps.askSetting env fun _ => .source verb qualifier type name) fun reply => ?_
  split
  · exact Keeps.pure _
  · split
    · exact Keeps.fail _
    · exact Keeps.throw (plain.error _)
  · exact Keeps.fail _

theorem rangeBound_confined (env : Env σ) [Session.Stable Inv] [env.Insulates Inv] (bound : Bound) (text : Text) :
    Keeps Inv leaves (rangeBound env bound text) := by
  refine Keeps.bind (Expr.evaluate_confined env text false) fun outcome => ?_
  extract_lets given
  have settles (result : Option Int) : Keeps Inv leaves (given result) := by
    cases result with
    | some n => exact Keeps.pure n
    | none =>
        dsimp only [given]
        split <;> exact Keeps.fail _
  split
  · exact Keeps.bind (Keeps.ofFault _) settles
  · exact Keeps.bind (Keeps.pure _) settles

theorem bindFields_confined [Session.Stable Inv] (name : Text) : Keeps Inv leaves (bindFields name : Run σ Loop) := by
  refine Keeps.bind (Keeps.readVariable name) fun stored => ?_
  split
  · exact Keeps.fail _
  · dsimp only
    split
    · exact Keeps.bind (Keeps.put _ _) fun _ => Keeps.pure _
    · exact Keeps.pure _

theorem bindFirst_confined (env : Env σ) [Session.Stable Inv] [env.Insulates Inv] (header : LoopHeader) :
    Keeps Inv leaves (bindFirst env header) := by
  cases header with
  | range name first last =>
      refine Keeps.bind (rangeBound_confined env _ first) fun start => ?_
      refine Keeps.bind (rangeBound_confined env _ last) fun stop => ?_
      dsimp only
      split
      · exact Keeps.bind (Keeps.put _ _) fun _ => Keeps.pure _
      · exact Keeps.pure _
  | list name literal =>
      cases literal with
      | none =>
          rw [bindFirst_stored]
          exact bindFields_confined name
      | some text =>
          rw [bindFirst_literal]
          exact Keeps.bind (Keeps.put _ _) fun _ => bindFields_confined name
  | external name qualifier type =>
      refine Keeps.bind (askSource_confined env _ _ _ _) fun answer => ?_
      split
      · exact Keeps.pure _
      · exact Keeps.pure _
      · exact Keeps.fail _
      · exact Keeps.fail _

theorem openLoop_confined (env : Env σ) [Session.Stable Inv] [env.Insulates Inv] (header : LoopHeader) :
    Keeps Inv leaves (openLoop env header) := by
  refine Keeps.bind (bindFirst_confined env header) fun loop => Keeps.read fun session => ?_
  exact Keeps.bind (Keeps.changeWithin fun _ => ⟨rfl, rfl, rfl, rfl⟩) fun _ => Keeps.pure _

theorem giveBack_confined (env : Env σ) [Session.Stable Inv] [env.Insulates Inv] (loop : Loop) :
    Keeps Inv leaves (giveBack env loop) := by
  unfold giveBack
  split
  · exact Keeps.put _ _
  · exact Keeps.pure _
  · exact Keeps.bind (askSource_confined env _ _ _ _) fun _ => Keeps.pure _

theorem closeLoop_confined (env : Env σ) [Session.Stable Inv] [env.Insulates Inv] (loop : Loop) :
    Keeps Inv leaves (closeLoop env loop) :=
  Keeps.bind (Keeps.changeWithin fun _ => ⟨rfl, rfl, rfl, rfl⟩) fun _ => giveBack_confined env loop

theorem advance_confined (env : Env σ) (depth : Nat) : Confined around leaves (advance env depth) := by
  refine Keeps.read fun session => ?_
  split
  · exact Keeps.pure _
  · dsimp only
    split
    · split
      · exact Keeps.pure _
      · refine Keeps.bind (Keeps.put _ _) fun _ => ?_
        exact Keeps.bind (Confined.modifyFrame _) fun _ => Keeps.pure _
    · refine Keeps.bind (Confined.modifyFrame _) fun _ => ?_
      split
      · exact Keeps.pure _
      · exact Keeps.bind (Keeps.put _ _) fun _ => Keeps.pure _
    · exact askSource_confined env _ _ _ _

end Flow

omit plain in
theorem Report.add_confined (env : Env σ) [Session.Stable Inv] (error : ScriptError) :
    Keeps Inv leaves (Report.add env error) := by
  refine Keeps.read fun session => Keeps.bind (Keeps.report _) fun _ => ?_
  split
  · exact Keeps.report _
  · exact Keeps.pure _

namespace Flow

theorem abandonLoops_confined (env : Env σ) (count : Nat) : Confined around leaves (abandonLoops env count) := by
  induction count with
  | zero => exact Keeps.pure _
  | succ count ih =>
      refine Keeps.read fun session => ?_
      split
      · exact Keeps.pure _
      · refine Keeps.bind (Confined.modifyFrame _) fun _ => ?_
        exact Keeps.bind (Keeps.onError (closeLoop_confined env _) (Report.add_confined env)
          fun exit kind _ => kind) fun _ => ih

theorem abandonAll_confined (env : Env σ) : Confined around leaves (abandonAll env) :=
  Keeps.read fun _ => abandonLoops_confined env _

end Flow

namespace Interpreter

theorem emit_confined (env : Env σ) (event : Text) (args : List Text) :
    Confined around leaves (emit env event args) := by
  refine Keeps.bind (Confined.askSetting _) fun reply => ?_
  split
  · exact Keeps.pure _
  · exact Keeps.throw (plain.error _)
  · exact Keeps.read fun session => Keeps.throw (plain.error _)

theorem decideCondition_confined (env : Env σ) [Session.Stable Inv] [env.Insulates Inv]
    (word : ConditionWord) (text : Text) : Keeps Inv leaves (decideCondition env word text) := by
  refine Keeps.onError (Expr.condition_confined env text) (fun error => ?_) fun exit kind _ => kind
  split
  · exact Keeps.fail _
  · exact Keeps.throw (plain.error _)

theorem runPlain_confined (env : Env σ) [Session.Stable Inv] [env.Insulates Inv] {exec : Text → Run σ Unit}
    {command : Command} (plain : command.isPlain) (rest : Text) :
      Keeps Inv leaves (runCommand env exec command rest) := by
  cases command with
  | addAlias | removeAlias | parse | parseString | leaveFile | quit | relativePaths | leaveLoop =>
      simp [Command.isPlain] at plain
  | print => exact Command.runPrint_confined env rest
  | printf => exact Command.runPrintf_confined env rest
  | sprint => exact Command.runSprint_confined env _ rest
  | sprintf => exact Command.runSprint_confined env _ rest
  | printOpen => exact Command.runPrintOpen_confined env rest
  | printClose => exact Keeps.changeWithin Session.closePrint_local
  | writeOpen => exact Command.runWriteOpen_confined env rest
  | writeClose => exact Keeps.changeWithin Session.closeWrite_local
  | set => exact Command.runSet_confined env rest
  | setLogical => exact Command.runSetLogical_confined env rest
  | unset => exact Command.runUnset_confined rest
  | publish => exact Command.runPublish_confined rest
  | system => exact Command.runSystem_confined env rest
  | wait => exact Command.runWait_confined env rest

theorem passConditions_confined (env : Env σ) (leaving : Bool) (line : Text) :
    Confined around leaves (passConditions env leaving line) := by
  refine Keeps.read fun session => ?_
  dsimp only
  split
  · exact Keeps.pure _
  · exact Keeps.bind (Confined.modifyFrame _) fun _ => Keeps.pure _
  · exact Keeps.fail _
  · refine Keeps.bind (Keeps.caught (decideCondition_confined env _ _)) fun decided => ?_
    refine Keeps.bind (Confined.modifyFrame _) fun _ => ?_
    exact Keeps.ofExcept plain.error _

theorem startLoop_confined (env : Env σ) (line : Text) : Confined around leaves (startLoop env line) := by
  refine Keeps.bind (Keeps.ofCause _) fun header => ?_
  refine Keeps.bind (Confined.modifyFrame _) fun _ => ?_
  exact Keeps.bind (Flow.openLoop_confined env header) fun loop => Confined.modifyFrame _

end Interpreter

end CommandScript
