import CommandScript.Proofs.Course.Programs

/-! Lines, scripts and statements run on course, by induction on how deeply lines run further lines. -/

namespace CommandScript

variable {σ α Log : Type}

open Run

namespace Interpreter

theorem runLine_run (env : Env σ) (exec : Text → Run σ Unit) (line : Text) (session : Session σ) :
    runLine env exec line session =
      match emit env "before_line" [line] { session with frame := { session.frame with statement := line } } with
      | .error exit after => .error exit after
      | .ok _ started =>
        match exec line started with
        | .ok _ last => emit env "after_line" [line] last
        | .error (.error error) last =>
          match emit env "on_error" [(locate last.frame line error).kind.label] last with
          | .ok _ after => .error (.error (locate last.frame line error)) after
          | .error exit after => .error exit after
        | .error exit last => .error exit last := by
  unfold runLine Run.onError
  simp only [bind, EStateM.bind, Run.modifyFrame, EStateM.modify_apply]
  cases emit env "before_line" [line] { session with frame := { session.frame with statement := line } } with
  | error exit after => rfl
  | ok _ started =>
      simp only [Run.attempt]
      cases exec line started with
      | ok _ last => rfl
      | error exit last =>
          cases exit with
          | error error =>
              simp only [EStateM.bind, EStateM.get_apply]
              cases emit env "on_error" [(locate last.frame line error).kind.label] last <;> rfl
          | _ => rfl

section

variable {env : Env σ} {log : σ → Log} {Good : Session σ → Prop} {floor : Nat} {start : Session σ}
  (lasting : Lasting env log Good) {depth : Nat} {exec : Text → Run σ Unit}
  (lines : ∀ text, Tracks env log Good (execLine env depth text) (exec text))

include lasting lines

theorem runLine_tracks (line : Text) :
    Tracks env log Good (runLine env (execLine env depth) line) (runLine env exec line) := by
  intro session floor grounded good
  let marked : Session σ := { session with frame := { session.frame with statement := line } }
  have marks : Course env log floor session marked := .mark rfl rfl rfl rfl
  have run := runLine_run env (execLine env depth) line session
  have run' := runLine_run env exec line session
  cases told : emit env "before_line" [line] marked with
  | error exit after =>
      rw [told] at run run'
      exact ⟨run'.trans run.symm, run ▸ .error (marks.trans (.refused told)) trivial⟩
  | ok _ started =>
      obtain ⟨frame, callers⟩ := emit_frame (Run.leaves_ok told)
      have ground : started.Grounded floor := by
        unfold Session.Grounded
        rw [frame]
        exact marks.grounded grounded
      -- from where the start of the line was told the two runs are those of its statements
      obtain ⟨same, kept⟩ := lines line floor ground (lasting.told (lasting.along good marks) frame callers)
      rw [told] at run run'
      dsimp only at run run'
      rw [same] at run'
      refine ⟨run'.trans run.symm, run ▸ ?_⟩
      have closes {ending : Except Exit Unit} {last after : Session σ}
          (ran : Run.attempt (execLine env depth line) started = .ok ending last)
          (course : Course env log floor started last) (closed : Closed env line ending last after) :
          Course env log floor session after := marks.trans (.line told ran course closed)
      cases ran : execLine env depth line started with
      | ok _ last =>
          have ended : Run.attempt (execLine env depth line) started = .ok (.ok ()) last := by
            simp only [Run.attempt, ran]
          rw [ran] at kept
          cases kept with
          | ok course =>
              dsimp only
              cases told : emit env "after_line" [line] last with
              | ok _ after => exact .ok (closes ended course (.ended told))
              | error exit after => exact .error (closes ended course (.unheardEnd told)) trivial
      | error exit last =>
          have ended : Run.attempt (execLine env depth line) started = .ok (.error exit) last := by
            simp only [Run.attempt, ran]
          rw [ran] at kept
          cases kept with
          | error course _ =>
              cases exit with
              | error error =>
                  dsimp only
                  cases told : emit env "on_error" [(locate last.frame line error).kind.label] last with
                  | ok _ after => exact .error (closes ended course (.failed told)) trivial
                  | error exit after => exact .error (closes ended course (.unheardError told)) trivial
              | _ => exact .error (closes ended course (.left fun _ same => by cases same)) trivial

variable [env.Silent log]

theorem collect_alike {session : Session σ} (grounded : session.Grounded floor) (good : Good session)
    (collecting : session.frame.loops.head?.any Loop.isCollecting = true) (line : Text) :
    Alike (Course env log floor session) (collect env (execLine env depth) line) (collect env exec line) session := by
  refine Alike.read ?_
  dsimp only
  refine Alike.change_bind ?_
  let counted : Session σ :=
    { session with frame := { session.frame with blocks := (session.frame.blocks.track line).1 } }
  have counts : Course env log floor session counted := .mark rfl rfl rfl rfl
  refine Alike.mono ?_ fun _ => counts.trans
  split
  · exact .of_keeps (Keeps.fail _) (.refl _ _)
  · exact Flow.endLoop_alike lasting (runLine_tracks lasting lines) (counts.grounded grounded)
      (lasting.along good counts) collecting
  · refine .of_keeps (Course.modifyFrame fun frame => ?_) (.refl _ _)
    exact .turn _ (fun _ => ⟨rfl, rfl, id⟩) fun _ => rfl

theorem runOpened_follows (good : Good start) (place : Location) :
    Follows (Course env log 0 start) (runOpened env (execLine env depth) place) (runOpened env exec place) :=
  Follows.runOpened Course.markable Flow.abandonAll_course
    (fun text => (runLine_tracks lasting lines text).follows lasting (.bottom start) good) place

theorem inFile_tracks (path : Text) (scope : Scope) (place : Location) :
    Tracks env log Good
      (Run.deeper 5 do
        enterFrame { path := some path } scope
        Run.always (runOpened env (execLine env depth) place) leaveFrame)
      (Run.deeper 5 do
        enterFrame { path := some path } scope
        Run.always (runOpened env exec place) leaveFrame) := by
  intro session floor _ good
  refine Alike.deeper Course.redepth (.refl _ _) ?_
  let caller : Session σ := { session with depth := session.depth + 5 }
  let inside := entered { path := some path } scope caller
  have goodInside : Good inside := lasting.enters good rfl rfl rfl
  have opened := runOpened_follows lasting lines goodInside place (.refl 0 inside)
  refine Alike.change_bind (Alike.always_to opened fun reached course => ?_)
  have callers : reached.callers = session.frame :: session.callers := course.callers
  have host : log (left reached).host = log reached.host :=
    congrArg log (reached.noteLost_kept reached.frame.loops).2.2.2.2
  refine .ok (.file ?_ ?_ ?_ ?_ course ?_ ?_ host)
  · rfl
  · rfl
  · rfl
  · rfl
  · simp only [callers, List.head?_cons, Option.getD_some]
  · simp only [callers, List.drop_one, List.tail_cons]

omit [env.Silent log] in
theorem runBlock_tracks (block : Text) :
    Tracks env log Good (runBlock (execLine env depth) block) (runBlock exec block) := by
  intro session floor grounded good
  let opened : Session σ := { session with store := session.store.openPending }
  have opens : Course env log floor session opened := .mark rfl rfl rfl rfl
  have goodOpened : Good opened := lasting.along good opens
  have inner : Alike (Course env log floor opened) (Run.deeper 4 (execLine env depth block))
      (Run.deeper 4 (exec block)) opened :=
    Alike.deeper Course.redepth (.refl _ _)
      ((lines block).follows lasting (opens.grounded grounded) goodOpened (Course.redepth opened _ (.refl _ _)))
  have closes {reached : Session σ} (course : Course env log floor opened reached) :
      Course env log floor session { reached with store := reached.store.closePending.2 } :=
    (opens.trans course).trans (.mark rfl rfl rfl rfl)
  obtain ⟨same, kept⟩ := inner
  refine ⟨by rw [runBlock_run, runBlock_run, same], ?_⟩
  rw [runBlock_run]
  generalize Run.deeper 4 (execLine env depth block) opened = result at kept ⊢
  cases kept with
  | ok course => exact .ok (closes course)
  | error course kind => exact .error (closes course) kind

theorem parseFile_tracks (target : ScriptTarget) :
    Tracks env log Good (parseFile env (execLine env depth) target) (parseFile env exec target) := by
  refine .of_follows fun floor start grounded good => ?_
  have runs (path : Text) (scope : Scope) (place : Location) := (inFile_tracks lasting lines path scope place).follows
    lasting grounded good
  refine Follows.read fun session => ?_
  dsimp only
  refine Follows.next (Course.aside fun _ => FileArguments.checkPath_confined _) fun _ => Follows.read fun session => ?_
  refine Follows.next (Keeps.ofExcept (fun _ => trivial) _) fun place => ?_
  split
  · split
    · exact Follows.next (Keeps.pure _) fun scope => runs _ scope place
    · exact Follows.bind ((runBlock_tracks lasting lines _).follows lasting grounded good) fun scope =>
        runs _ scope place
  · exact Follows.next (Keeps.pure _) fun scope => runs _ scope place

omit [env.Silent log] in
theorem parseString_tracks (rest : Text) :
    Tracks env log Good (parseString (execLine env depth) rest) (parseString exec rest) := by
  refine .of_follows fun floor start grounded good => ?_
  refine Follows.next (Course.aside fun _ => Command.require_confined _ _ _) fun _ => ?_
  refine Follows.next (Course.aside fun _ => Keeps.readVariable rest) fun stored => fun session course => ?_
  exact Alike.deeper Course.redepth course ((lines _).follows lasting grounded good (Course.redepth _ _ course))

theorem runCommand_tracks (command : Command) (rest : Text) :
    Tracks env log Good (runCommand env (execLine env depth) command rest) (runCommand env exec command rest) := by
  cases command with
  | parse =>
      refine .of_follows fun floor start grounded good => Follows.read fun session => ?_
      refine Follows.next (Keeps.ofFailure _) fun target => ?_
      exact (parseFile_tracks lasting lines target).follows lasting grounded good
  | parseString => exact parseString_tracks lasting lines rest
  | addAlias => exact .of_keeps fun _ _ => Command.runAlias_course rest
  | removeAlias => exact .of_keeps fun _ _ => Command.runUnalias_course rest
  | leaveFile => exact .of_keeps fun _ _ => Command.runLeaveFile_course
  | quit => exact .of_keeps fun _ _ => Command.runQuit_course rest
  | relativePaths => exact .of_keeps fun _ _ => Command.runRelativePaths_course rest
  | leaveLoop => exact .of_keeps fun _ _ => Command.runLeaveLoop_course
  | _ => exact .of_keeps fun _ _ => Course.aside fun _ => runPlain_confined env rfl rest

omit lasting lines in
theorem startLoop_course (line : Text) : Keeps (Course env log floor start) Exit.any (startLoop env line) := by
  refine Keeps.bind (Keeps.ofCause _) fun header => ?_
  refine Keeps.bind (Course.marks (fun _ => rfl) fun _ => rfl) fun _ => ?_
  -- a loop that is opened brings no aliases along
  refine Keeps.bindEnded (Course.aside fun _ => Flow.openLoop_confined env header) fun _ _ loop opened => ?_
  exact Course.modifyFrame fun frame => .push loop (Structured.openLoop_fresh env header _ _ _ opened).unaliased

theorem runStatement_tracks (line : Text) :
    Tracks env log Good (runStatement env (execLine env depth) line) (runStatement env exec line) := by
  unfold runStatement
  split
  · exact .of_keeps fun _ _ => startLoop_course line
  split
  · exact .of_keeps fun _ _ => Keeps.fail _
  split
  · exact .of_keeps fun _ _ => Course.aside fun _ => Command.runShell_confined env _
  dsimp only
  split
  · exact runCommand_tracks lasting lines _ _
  refine .of_keeps fun _ _ => Course.aside fun _ => ?_
  split
  · exact Keeps.bind (Expr.valueOf_confined env line) fun _ => Keeps.pure _
  · refine Keeps.bind (Command.assign_confined env line) fun assigned => ?_
    split
    · exact Command.dispatch_confined env line
    · exact Keeps.pure _

omit lasting lines in
theorem passConditions_course (leaving : Bool) (line : Text) :
    Keeps (Course env log floor start) Exit.any (passConditions env leaving line) := by
  have sets (conditions : List Branch) :
      Keeps (Course env log floor start) Exit.any (setConditions conditions : Run σ Unit) :=
    Course.marks (fun _ => rfl) fun _ => rfl
  refine Keeps.read fun session => ?_
  dsimp only
  split
  · exact Keeps.pure _
  · exact Keeps.bind (sets _) fun _ => Keeps.pure _
  · exact Keeps.fail _
  · refine Keeps.bind (Keeps.caught (Course.aside fun _ => decideCondition_confined env _ _)) fun decided => ?_
    exact Keeps.bind (sets _) fun _ => Keeps.ofExcept (fun _ => trivial) _

theorem statement_tracks (text : Text) :
    Tracks env log Good (statement env (execLine env depth) text) (statement env exec text) := by
  unfold statement
  dsimp only
  split
  · exact .of_keeps fun _ _ => Keeps.pure _
  refine .of_follows fun floor start grounded good => ?_
  refine Follows.next (Keeps.ofMalformed _) fun _ session course => Alike.read ?_
  have ground := course.grounded grounded
  have goodHere := lasting.along good course
  split
  · rename_i collecting
    exact (collect_alike lasting lines ground goodHere collecting _).mono fun _ => course.trans
  · refine Alike.bind (.of_keeps (passConditions_course _ _) course) fun settled => ?_
    split
    · exact (Keeps.pure _).follows
    split
    · exact (runStatement_tracks lasting lines _).follows lasting grounded good
    · exact (Keeps.pure _).follows

end

theorem execLine_tracks (env : Env σ) (log : σ → Log) [env.Silent log] {Good : Session σ → Prop}
    (lasting : Lasting env log Good) (depth : Nat) (text : Text) :
    Tracks env log Good (execLine env depth text) (execLine env depth text) := by
  induction depth generalizing text with
  | zero => exact .of_keeps fun _ _ => Keeps.throw trivial
  | succ depth ih =>
      refine .of_follows fun floor start grounded good => ?_
      refine Follows.next (Keeps.ofMalformed _) fun texts => Follows.forM fun text => ?_
      exact (statement_tracks lasting ih text).follows lasting grounded good

end Interpreter

end CommandScript
