import CommandScript.Proofs.Course.Moves

/-! Programs that run on course. Most programs leave the frame alone and make only requests that a log of the events
does not take note of: they are a single move, aside of the script. The others say what they do to the aliases and the
loops. Two ways to run the lines of a loop's body are compared along the way. -/

namespace CommandScript

variable {σ α Log : Type}

open Run

/-- Requests of a script leave a log of the host as it is; only events may be noted there. -/
class Env.Silent (env : Env σ) (log : σ → Log) : Prop where
  answers {before after : σ} : env.Answers before after → log after = log before

instance (env : Env σ) (value : Log) : env.Silent fun _ => value where
  answers _ := rfl

/-- The script stands where another session's script stands, and nothing has been noted since. -/
structure Session.Beside (log : σ → Log) (reference session : Session σ) : Prop where
  frame : session.frame = reference.frame
  callers : session.callers = reference.callers
  quiet : log session.host = log reference.host

instance (log : σ → Log) (reference : Session σ) : Session.Stable (Session.Beside log reference) where
  within beside kept :=
    ⟨kept.frame.trans beside.frame, kept.callers.trans beside.callers, kept.host ▸ beside.quiet⟩

instance (env : Env σ) (log : σ → Log) [silent : env.Silent log] (reference : Session σ) :
    env.Insulates (Session.Beside log reference) where
  answers beside asked := ⟨beside.frame, beside.callers, (silent.answers asked).trans beside.quiet⟩

instance (floor : Nat) : Session.Stable (Session.Grounded floor : Session σ → Prop) where
  within grounded kept := by
    unfold Session.Grounded
    rw [kept.frame]
    exact grounded

instance (env : Env σ) (floor : Nat) : env.Insulates (Session.Grounded floor) where
  answers grounded _ := grounded

namespace Course

variable {env : Env σ} {log : σ → Log} {floor : Nat} {start : Session σ}

theorem mark {before after : Session σ} (loops : after.frame.loops = before.frame.loops)
    (aliases : after.frame.aliases = before.frame.aliases) (callers : after.callers = before.callers)
    (host : after.host = before.host) : Course env log floor before after :=
  .move (.mark loops aliases) callers (congrArg log host)

theorem of_change {before : Session σ} {frame : Frame} (change : before.frame.Change floor frame) :
    Course env log floor before { before with frame } := .move change rfl rfl

theorem aside {program : Run σ α} (beside : ∀ reference, Keeps (Session.Beside log reference) Exit.any program) :
    Keeps (Course env log floor start) Exit.any program := by
  intro session course
  have kept := beside session ⟨rfl, rfl, rfl⟩
  have goesOn {after : Session σ} (beside : Session.Beside log session after) : Course env log floor start after :=
    course.trans (.move (beside.frame ▸ .refl _ _) beside.callers beside.quiet)
  generalize program session = result at kept ⊢
  cases kept with
  | ok beside => exact .ok (goesOn beside)
  | error beside kind => exact .error (goesOn beside) kind

theorem modifyFrame {f : Frame → Frame} (change : ∀ frame : Frame, frame.Change floor (f frame)) :
    Keeps (Course env log floor start) Exit.any (Run.modifyFrame f : Run σ Unit) :=
  Keeps.change fun session course => course.trans (.of_change (change session.frame))

theorem marks {f : Frame → Frame} (loops : ∀ frame, (f frame).loops = frame.loops)
    (aliases : ∀ frame, (f frame).aliases = frame.aliases) :
    Keeps (Course env log floor start) Exit.any (Run.modifyFrame f : Run σ Unit) :=
  modifyFrame fun frame => .mark (loops frame) (aliases frame)

theorem markable : Markable (Course env log floor start) where
  marks loops aliases := marks loops aliases
  reports text := aside fun _ => Keeps.report text

theorem redepth (session : Session σ) (depth : Nat) (course : Course env log floor start session) :
    Course env log floor start { session with depth } := course.trans (.mark rfl rfl rfl rfl)

end Course

namespace Command

variable {env : Env σ} {log : σ → Log} {floor : Nat} {start : Session σ}

theorem writes_course (text : Text) : Keeps (Course env log floor start) Exit.any (Run.writeLine text : Run σ Unit) :=
  Course.aside fun _ => Keeps.writeLine text

theorem runAlias_course (rest : Text) : Keeps (Course env log floor start) Exit.any (runAlias rest : Run σ Unit) := by
  have lists (entries : List Alias) : Keeps (Course env log floor start) Exit.any
      (entries.forM fun entry => Run.writeLine (entry.name ++ "=" ++ entry.value) : Run σ Unit) :=
    Keeps.forM fun entry => writes_course _
  unfold runAlias
  split
  · refine Keeps.read fun session => ?_
    dsimp only
    split
    · exact Keeps.bind (writes_course _) fun _ => lists _
    · exact lists _
  · cases Alias.parse rest with
    | error error => exact fun session course => .error course trivial
    | ok entry => exact fun session course => .ok (course.trans (.of_change (.define entry)))

def removeName (tells : Bool) (name : Text) : Run σ Unit := do
  let tables := (← get).frame.aliasTables
  Run.modifyFrame (·.withAliasTables (tables.map (AliasTable.remove · name)))
  if tells then
    Run.writeLine (name ++ if tables.any (AliasTable.has · name) then (" removed" : Text) else " not defined")

theorem runUnalias_eq (env : Env σ) (rest : Text) : runUnalias env rest = (do
    require rest "unalias" "arguments"
    let tells := env.options.standardInput && !(← get).inFile
    (Text.words rest).forM (removeName tells)) := rfl

theorem removeName_course (tells : Bool) (name : Text) :
    Keeps (Course env log floor start) Exit.any (removeName tells name : Run σ Unit) := by
  intro session course
  have removed : Course env log floor start
      { session with
        frame := session.frame.withAliasTables (session.frame.aliasTables.map (AliasTable.remove · name)) } :=
    course.trans (.of_change (.remove name))
  cases tells with
  | true => exact writes_course _ removed
  | false => exact .ok removed

theorem runUnalias_course [env.Silent log] (rest : Text) :
    Keeps (Course env log floor start) Exit.any (runUnalias env rest) := by
  rw [runUnalias_eq]
  refine Keeps.bind (Course.aside fun _ => require_confined _ _ _) fun _ => Keeps.read fun session => ?_
  exact Keeps.forM fun name => removeName_course _ name

theorem runLeaveLoop_course : Keeps (Course env log floor start) Exit.any (runLeaveLoop : Run σ Unit) := by
  refine Keeps.read fun session => Keeps.guard _ _ (Course.modifyFrame fun frame => ?_)
  exact .turn _ (fun _ => ⟨rfl, rfl, nofun⟩) fun _ => rfl

theorem runRelativePaths_course (rest : Text) :
    Keeps (Course env log floor start) Exit.any (runRelativePaths rest : Run σ Unit) := by
  unfold runRelativePaths
  split
  · exact Course.marks (fun _ => rfl) fun _ => rfl
  · exact Keeps.fail _

theorem runLeaveFile_course : Keeps (Course env log floor start) Exit.any (runLeaveFile : Run σ Unit) := by
  refine Keeps.read fun session => ?_
  split
  · exact Keeps.throw trivial
  · exact Keeps.fail _

theorem runQuit_course [env.Silent log] (rest : Text) :
    Keeps (Course env log floor start) Exit.any (runQuit env rest) := by
  refine Keeps.read fun session => ?_
  dsimp only
  split
  · exact Keeps.pure _
  refine Keeps.check _ trivial ?_
  refine Keeps.bind (Course.aside fun _ => Words.substitute_confined env rest) fun text => ?_
  refine Keeps.bind (Keeps.ofFault _) fun code => ?_
  split
  · exact Keeps.throw trivial
  · exact Keeps.fail _

end Command

namespace Flow

variable {env : Env σ} {log : σ → Log} [env.Silent log] {floor : Nat} {start : Session σ}

theorem advance_course {depth : Nat} (above : floor ≤ depth) :
    Keeps (Course env log floor start) Exit.any (advance env depth) := by
  have steps (source : LoopSource) : Keeps (Course env log floor start) Exit.any
      (Run.modifyFrame (·.modifyLoopAt depth ({ · with source })) : Run σ Unit) :=
    Course.modifyFrame fun _ => .advance above source
  have puts (name value : Text) : Keeps (Course env log floor start) Exit.any (Run.put name value : Run σ Unit) :=
    Course.aside fun _ => Keeps.put name value
  refine Keeps.read fun session => ?_
  split
  · exact Keeps.pure _
  · dsimp only
    split
    · split
      · exact Keeps.pure _
      · exact Keeps.bind (puts _ _) fun _ => Keeps.bind (steps _) fun _ => Keeps.pure _
    · refine Keeps.bind (steps _) fun _ => ?_
      split
      · exact Keeps.pure _
      · exact Keeps.bind (puts _ _) fun _ => Keeps.pure _
    · exact Course.aside fun _ => askSource_confined env _ _ _ _

omit [env.Silent log] in
theorem advance_grounded (depth : Nat) : Keeps (Session.Grounded (depth + 1)) Exit.any (advance env depth) := by
  have steps (source : LoopSource) : Keeps (Session.Grounded (depth + 1)) Exit.any
      (Run.modifyFrame (·.modifyLoopAt depth ({ · with source })) : Run σ Unit) := by
    refine Keeps.change fun session grounded index top => ?_
    obtain ⟨loop, found, read⟩ := grounded index top
    obtain rfl : index = depth := by omega
    simp only [Frame.loopAt?] at found
    refine ⟨{ loop with source }, ?_, read⟩
    simp [Frame.loopAt?, Frame.modifyLoopAt, found]
  refine Keeps.read fun session => ?_
  split
  · exact Keeps.pure _
  · dsimp only
    split
    · split
      · exact Keeps.pure _
      · exact Keeps.bind (Keeps.put _ _) fun _ => Keeps.bind (steps _) fun _ => Keeps.pure _
    · refine Keeps.bind (steps _) fun _ => ?_
      split
      · exact Keeps.pure _
      · exact Keeps.bind (Keeps.put _ _) fun _ => Keeps.pure _
    · exact askSource_confined env _ _ _ _

omit [env.Silent log] in
theorem reports_course (error : ScriptError) : Keeps (Course env log floor start) Exit.any (Report.add env error) :=
  Course.aside fun _ => Report.add_confined env error

theorem closeLoop_course (loop : Loop) : Keeps (Course env log floor start) Exit.any (closeLoop env loop) :=
  Course.aside fun _ => closeLoop_confined env loop

theorem abandonLoops_course (count : Nat) : Keeps (Course env log 0 start) Exit.any (abandonLoops env count) := by
  induction count with
  | zero => exact Keeps.pure _
  | succ count ih =>
      intro session course
      refine Meets.kept (Meets.read ?_)
      split
      · exact Meets.pure course
      · rename_i loop rest stack
        have above : 0 < session.frame.loops.length := by simp [stack]
        have popped : session.frame.Change 0 { session.frame with loops := rest } := by
          simpa [stack] using Frame.Change.pop above
        have closes : Keeps (Course env log 0 start) Exit.any (Run.onError (closeLoop env loop) (Report.add env)) :=
          Keeps.onError (closeLoop_course loop) reports_course fun _ _ _ => trivial
        exact Meets.change_bind (Keeps.bind closes (fun _ => ih) (course.trans (.of_change popped))).meets

theorem abandonAll_course : Keeps (Course env log 0 start) Exit.any (abandonAll env) :=
  Keeps.read fun _ => abandonLoops_course _

omit [env.Silent log] in
theorem noteEnd_course (session : Session σ) (loop : Loop) : Course env log floor session (session.noteEnd loop) := by
  have frame := session.noteEnd_frame loop
  exact .mark (by rw [frame]) (by rw [frame]) (session.noteEnd_kept loop).2.1 (session.noteEnd_kept loop).2.2

theorem finishLoop_course {session : Session σ} (course : Course env log floor start session)
    (above : floor < session.frame.loops.length) (depth resume : Nat) :
    Kept (Course env log floor start) Exit.any (finishLoop env depth resume session) := by
  have popped {reached : Session σ} (goesOn : Course env log floor start reached)
      (still : floor < reached.frame.loops.length) :
      Course env log floor start
        { reached with frame := { reached.frame with line := resume, loops := reached.frame.loops.drop 1 } } := by
    exact (goesOn.trans (.of_change (.pop still))).trans (.mark rfl rfl rfl rfl)
  refine Meets.kept (Meets.read ?_)
  cases session.frame.loopAt? depth with
  | none => exact Meets.change_bind (Meets.pure (popped course above))
  | some loop =>
      have frame := session.noteEnd_frame loop
      have off := popped (course.trans (noteEnd_course session loop)) (by rw [frame]; exact above)
      exact Meets.change_bind (Meets.change_bind (closeLoop_course loop off).meets)

end Flow

/-- A property of sessions that lasts: it holds along every course, when an event is told and when a script is
entered. -/
structure Lasting (env : Env σ) (log : σ → Log) (Good : Session σ → Prop) : Prop where
  along {floor : Nat} {before after : Session σ} : Good before → Course env log floor before after → Good after
  told {before after : Session σ} : Good before → after.frame = before.frame → after.callers = before.callers →
    Good after
  enters {caller entered : Session σ} : Good caller → entered.frame.loops = [] → entered.frame.aliases = [] →
    entered.callers = caller.frame :: caller.callers → Good entered

theorem Lasting.always (env : Env σ) (log : σ → Log) : Lasting env log fun _ => True where
  along _ _ := trivial
  told _ _ _ := trivial
  enters _ _ _ _ := trivial

/-- Two programs come to the same from every session with a property, and what they do is a course above every floor
that the stack has. -/
def Run.Tracks (env : Env σ) (log : σ → Log) (Good : Session σ → Prop) (program other : Run σ α) : Prop :=
  ∀ ⦃session⦄ floor, session.Grounded floor → Good session → Alike (Course env log floor session) program other session

section Tracks

variable {env : Env σ} {log : σ → Log} {Good : Session σ → Prop} {floor : Nat} {start : Session σ}

theorem Run.Tracks.of_keeps {program : Run σ α}
    (keeps : ∀ floor session, Keeps (Course env log floor session) Exit.any program) :
    Tracks env log Good program program :=
  fun session floor _ _ => .of_keeps (keeps floor session) (.refl floor session)

theorem Run.Tracks.follows (lasting : Lasting env log Good) {program other : Run σ α}
    (tracks : Tracks env log Good program other) (grounded : start.Grounded floor) (good : Good start) :
    Follows (Course env log floor start) program other :=
  fun _ course => (tracks floor (course.grounded grounded) (lasting.along good course)).mono fun _ => course.trans

theorem Run.Tracks.of_follows {program other : Run σ α}
    (follows : ∀ floor session, session.Grounded floor → Good session →
      Follows (Course env log floor session) program other) : Tracks env log Good program other :=
  fun session floor grounded good => follows floor session grounded good (.refl floor session)

variable (lasting : Lasting env log Good) [env.Silent log] {runs runs' : Text → Run σ Unit}
  (lines : ∀ text, Tracks env log Good (runs text) (runs' text))

include lasting lines

namespace Flow

omit [env.Silent log] in
theorem replayLines_follows (grounded : start.Grounded floor) (good : Good start) (conditions : Nat)
    (body : List BodyLine) :
    Follows (Course env log floor start) (replayLines env runs conditions body)
      (replayLines env runs' conditions body) :=
  Follows.replayLines Course.markable (fun text => (lines text).follows lasting grounded good) conditions body

theorem replay_follows (good : Good start) {depth : Nat} (above : floor ≤ depth) (conditions : Nat)
    (body : List BodyLine) (passes pass : Nat) :
    Follows (fun reached => Course env log floor start reached ∧ reached.Grounded (depth + 1))
      (replay env runs depth conditions body passes pass) (replay env runs' depth conditions body passes pass) := by
  induction passes generalizing pass with
  | zero => exact (Keeps.throw trivial).follows
  | succ passes ih =>
      refine Follows.next (Keeps.and (Course.aside fun _ => Keeps.put _ _) (Keeps.put _ _)) fun _ => ?_
      refine Follows.bind (fun session holds => ?_) fun _ => Follows.read fun session => ?_
      · -- the lines run above the loop itself, so that it stays where it is
        obtain ⟨course, grounded⟩ := holds
        have runsOn := replayLines_follows lasting lines grounded (lasting.along good course) conditions body
          (.refl _ _)
        refine runsOn.mono fun after goesOn => ⟨course.trans (goesOn.lower (by omega)), goesOn.grounded grounded⟩
      · split
        · exact (Keeps.pure _).follows
        · refine Follows.next (Keeps.and (advance_course above) (advance_grounded depth)) fun answer => ?_
          split
          · exact ih (pass + 1)
          · exact (Keeps.pure _).follows

theorem endLoop_alike {session : Session σ} (grounded : session.Grounded floor) (good : Good session)
    (collecting : session.frame.loops.head?.any Loop.isCollecting = true) :
    Alike (Course env log floor session) (endLoop env runs) (endLoop env runs') session := by
  refine Alike.read ?_
  dsimp only
  split
  · exact .of_keeps (Keeps.pure _) (.refl _ _)
  rename_i loop outer stack
  have le : floor ≤ outer.length := grounded.below_collecting stack (by simpa [stack] using collecting)
  let Mid (reached : Session σ) : Prop :=
    Course env log floor session reached ∧ outer.length < reached.frame.loops.length
  have finishes (resume : Nat) (reached : Session σ) (mid : Mid reached) :
      Kept (Course env log floor session) Exit.any (finishLoop env outer.length resume reached) :=
    finishLoop_course mid.1 (by omega) _ _
  refine Alike.bind (Alike.always_to ?_ (finishes _)) fun answer => ?_
  · split
    · let turned : Session σ :=
        { session with frame := session.frame.modifyLoop ({ · with mode := .replaying }) }
      have turns : Course env log floor session turned :=
        .of_change (.turn _ (fun _ => ⟨rfl, rfl, nofun⟩) fun _ => rfl)
      have ground : turned.Grounded (outer.length + 1) := by
        intro index top
        obtain rfl : index = outer.length := by omega
        exact ⟨{ loop with mode := .replaying }, by simp [turned, Frame.loopAt?, Frame.modifyLoop, stack], rfl⟩
      have replays := replay_follows lasting lines good le session.frame.conditions.length loop.lines
        (budget env loop) 1
      refine Alike.change_bind (Alike.mono (Alike.deeper ?_ ⟨turns, ground⟩ (replays ?_)) ?_)
      · exact fun reached depth holds => ⟨Course.redepth reached depth holds.1, holds.2⟩
      · exact ⟨Course.redepth turned _ turns, ground⟩
      · rintro reached ⟨course, standing⟩
        obtain ⟨now, found, _⟩ := standing outer.length rfl
        obtain ⟨inside, _⟩ := List.getElem?_eq_some_iff.mp found
        exact ⟨course, by simpa using inside⟩
    · exact .of_keeps (Keeps.pure _) ⟨.refl _ _, by simp [stack]⟩
  · exact (Keeps.guard _ _ (Keeps.guard _ _ (Keeps.pure _))).follows

end Flow

end Tracks

end CommandScript
