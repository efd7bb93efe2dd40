import CommandScript.Proofs.Blocks.Nesting
import CommandScript.Proofs.Scoping.Bindings

/-! Two ways to run lines that make no difference as long as an invariant holds. With the same way twice, this says that
programs that run lines keep the invariant. -/

namespace CommandScript

variable {σ α β : Type}

namespace Run

/-- Two programs come to the same from a session, and keep an invariant. -/
structure Alike (Inv : Session σ → Prop) (program other : Run σ α) (session : Session σ) : Prop where
  same : other session = program session
  kept : Kept Inv Exit.any (program session)

/-- Wherever an invariant holds, two programs come to the same and keep it. -/
def Follows (Inv : Session σ → Prop) (program other : Run σ α) : Prop :=
  ∀ ⦃session⦄, Inv session → Alike Inv program other session

variable {Inv : Session σ → Prop} {session : Session σ}

theorem Keeps.follows {program : Run σ α} (keeps : Keeps Inv Exit.any program) : Follows Inv program program :=
  fun _ holds => ⟨rfl, keeps holds⟩

namespace Alike

theorem bindEnded {first first' : Run σ α} {next next' : α → Run σ β} (one : Alike Inv first first' session)
    (two : ∀ value after, first session = .ok value after → Inv after → Alike Inv (next value) (next' value) after) :
    Alike Inv (first >>= next) (first' >>= next') session := by
  obtain ⟨same, kept⟩ := one
  have unfolded : (first' >>= next') session = EStateM.bind first' next' session := rfl
  have unfolded' : (first >>= next) session = EStateM.bind first next session := rfl
  unfold EStateM.bind at unfolded unfolded'
  rw [same] at unfolded
  cases ran : first session with
  | ok value after =>
      rw [ran] at kept unfolded unfolded'
      cases kept with
      | ok holds =>
          obtain ⟨equal, still⟩ := two value after ran holds
          exact ⟨unfolded.trans (equal.trans unfolded'.symm), unfolded' ▸ still⟩
  | error exit after =>
      rw [ran] at kept unfolded unfolded'
      cases kept with
      | error holds kind => exact ⟨unfolded.trans unfolded'.symm, unfolded' ▸ .error holds kind⟩

theorem bind {first first' : Run σ α} {next next' : α → Run σ β} (one : Alike Inv first first' session)
    (two : ∀ value, Follows Inv (next value) (next' value)) : Alike Inv (first >>= next) (first' >>= next') session :=
  one.bindEnded fun value _ _ holds => two value holds

theorem read {next next' : Session σ → Run σ α} (second : Alike Inv (next session) (next' session) session) :
    Alike Inv (get >>= next) (get >>= next') session := ⟨second.same, second.kept⟩

theorem change_bind {f : Session σ → Session σ} {next next' : Unit → Run σ α}
    (second : Alike Inv (next ()) (next' ()) (f session)) :
      Alike Inv (modify f >>= next) (modify f >>= next') session :=
  ⟨second.same, second.kept⟩

theorem mono {Other : Session σ → Prop} {program other : Run σ α} (alike : Alike Inv program other session)
    (weaker : ∀ after, Inv after → Other after) : Alike Other program other session := by
  obtain ⟨same, kept⟩ := alike
  refine ⟨same, ?_⟩
  generalize program session = result at kept ⊢
  cases kept with
  | ok holds => exact .ok (weaker _ holds)
  | error holds kind => exact .error (weaker _ holds) kind

theorem of_keeps {program : Run σ α} (keeps : Keeps Inv Exit.any program) (holds : Inv session) :
    Alike Inv program program session := keeps.follows holds

theorem attempt {program other : Run σ α} (alike : Alike Inv program other session) :
    Alike Inv (Run.attempt program) (Run.attempt other) session := by
  obtain ⟨same, kept⟩ := alike
  refine ⟨by simp only [Run.attempt, same], ?_⟩
  unfold Run.attempt
  generalize program session = result at kept ⊢
  cases kept with
  | ok still => exact .ok still
  | error still _ => exact .ok still

theorem always {program other : Run σ α} {after : Run σ Unit} (first : Alike Inv program other session)
    (second : Keeps Inv Exit.any after) : Alike Inv (Run.always program after) (Run.always other after) session := by
  refine bind first.attempt fun result => (Keeps.bind second fun _ => ?_).follows
  cases result with
  | ok value => exact Keeps.pure value
  | error exit => exact Keeps.throw trivial

theorem attempt_bind {β : Type} {Mid : Session σ → Prop} {program other : Run σ α} {next : Except Exit α → Run σ β}
    (first : Alike Mid program other session)
    (rest : ∀ result reached, Mid reached → Kept Inv Exit.any (next result reached)) :
    Alike Inv (Run.attempt program >>= next) (Run.attempt other >>= next) session := by
  obtain ⟨same, kept⟩ := first
  have unfolded (program : Run σ α) : (Run.attempt program >>= next) session =
      EStateM.bind (Run.attempt program) next session :=
    rfl
  refine ⟨by rw [unfolded, unfolded, EStateM.bind, EStateM.bind, Run.attempt, Run.attempt, same], ?_⟩
  rw [unfolded, EStateM.bind, Run.attempt]
  generalize program session = result at kept ⊢
  cases kept with
  | ok holds => exact rest (.ok _) _ holds
  | error holds _ => exact rest (.error _) _ holds

theorem always_to {Mid : Session σ → Prop} {program other : Run σ α} {last : Run σ Unit}
    (first : Alike Mid program other session) (second : ∀ reached, Mid reached → Kept Inv Exit.any (last reached)) :
    Alike Inv (Run.always program last) (Run.always other last) session := by
  refine attempt_bind first fun result reached holds => ?_
  have finished := second reached holds
  change Kept Inv Exit.any (EStateM.bind last _ reached)
  unfold EStateM.bind
  generalize last reached = ended at finished ⊢
  cases finished with
  | ok still =>
      cases result with
      | ok value => exact .ok still
      | error exit => exact .error still trivial
  | error still kind => exact .error still kind

theorem deeper (stable : ∀ session depth, Inv session → Inv { session with depth }) {calls : Nat}
    {program other : Run σ α} (holds : Inv session)
    (inner : Alike Inv program other { session with depth := session.depth + calls }) :
    Alike Inv (Run.deeper calls program) (Run.deeper calls other) session := by
  have redepth (depth : Nat) : Keeps Inv Exit.any (modify ({ · with depth }) : Run σ Unit) :=
    Keeps.change fun _ holds => stable _ _ holds
  refine Alike.read ?_
  dsimp only
  split
  · exact Alike.bindEnded (.of_keeps (Keeps.throw trivial) holds) fun _ _ ended => nomatch ended
  · refine Alike.bindEnded (.of_keeps (redepth _) holds) fun _ _ ended _ => ?_
    cases ended
    exact inner.always (redepth _)

end Alike

theorem Meets.any {program : Run σ α} : Meets (fun _ _ => True) (fun _ _ => True) program session := by
  unfold Meets
  cases program session with
  | ok value after => exact .ok trivial
  | error exit after => exact .error trivial

theorem Meets.ended {Ends : α → Session σ → Prop} {Fails : Exit → Session σ → Prop} {program : Run σ α} {value : α}
    {after : Session σ} (meets : Meets Ends Fails program session) (ran : program session = .ok value after) :
    Ends value after := by
  unfold Meets at meets
  rw [ran] at meets
  cases meets with
  | ok holds => exact holds

theorem Meets.reached {program : Run σ α} :
    Meets (fun value after => program session = .ok value after) (fun _ _ => True) program session :=
  Meets.any.ran.mono (fun _ _ => And.right) fun _ _ _ => trivial

theorem stays_of_respects {program : Run σ α} {value : α} {session after : Session σ}
    (respects : ∀ R : Session σ → Session σ → Prop, Respects R program) (ended : program session = .ok value after) :
    after = session := by
  have linked := @respects (fun left _ => left = session) session session rfl
  rw [ended] at linked
  cases linked with
  | ok same => exact same

namespace Follows

theorem bind {first first' : Run σ α} {next next' : α → Run σ β} (one : Follows Inv first first')
    (two : ∀ value, Follows Inv (next value) (next' value)) : Follows Inv (first >>= next) (first' >>= next') :=
  fun _ holds => (one holds).bind two

theorem next {first : Run σ α} {next next' : α → Run σ β} (one : Keeps Inv Exit.any first)
    (two : ∀ value, Follows Inv (next value) (next' value)) : Follows Inv (first >>= next) (first >>= next') :=
  bind one.follows two

theorem read {next next' : Session σ → Run σ α} (second : ∀ session, Follows Inv (next session) (next' session)) :
    Follows Inv (get >>= next) (get >>= next') := fun session holds => .read (second session holds)

theorem attempt {program other : Run σ α} (follows : Follows Inv program other) :
    Follows Inv (Run.attempt program) (Run.attempt other) := fun _ holds => (follows holds).attempt

theorem always {program other : Run σ α} {after : Run σ Unit} (first : Follows Inv program other)
    (second : Keeps Inv Exit.any after) : Follows Inv (Run.always program after) (Run.always other after) :=
  fun _ holds => (first holds).always second

theorem onError {program other : Run σ α} {handler : ScriptError → Run σ α} (inner : Follows Inv program other)
    (handled : ∀ error, Keeps Inv Exit.any (handler error)) :
    Follows Inv (Run.onError program handler) (Run.onError other handler) := by
  refine bind inner.attempt fun result => ?_
  split
  · exact (Keeps.pure _).follows
  · exact (handled _).follows
  · exact (Keeps.throw trivial).follows

theorem forM {items : List β} {program other : β → Run σ PUnit}
    (each : ∀ item, Follows Inv (program item) (other item)) :
    Follows Inv (items.forM program) (items.forM other) := by
  induction items with
  | nil => exact (Keeps.pure _).follows
  | cons item rest ih => exact bind (each item) fun _ => ih

end Follows

/-- The invariant allows for changes of a frame beside its loops and its aliases, and for reports. -/
structure Markable (Inv : Session σ → Prop) : Prop where
  marks {f : Frame → Frame} : (∀ frame, (f frame).loops = frame.loops) → (∀ frame, (f frame).aliases = frame.aliases) →
    Keeps Inv Exit.any (Run.modifyFrame f : Run σ Unit)
  reports (text : Text) : Keeps Inv Exit.any (Run.report text : Run σ Unit)

theorem Markable.adds (markable : Markable Inv) (env : Env σ) (error : ScriptError) :
    Keeps Inv Exit.any (Report.add env error) := by
  refine Keeps.read fun session => Keeps.bind (markable.reports _) fun _ => ?_
  split
  · exact markable.reports _
  · exact Keeps.pure _

namespace Follows

section Scripts

variable {env : Env σ} (markable : Markable Inv)

include markable

theorem replayLines {runs runs' : Text → Run σ Unit} (lines : ∀ text, Follows Inv (runs text) (runs' text))
    (conditions : Nat) (body : List BodyLine) :
    Follows Inv (Flow.replayLines env runs conditions body) (Flow.replayLines env runs' conditions body) := by
  induction body with
  | nil => exact (Keeps.pure _).follows
  | cons line rest ih =>
      refine Follows.next (markable.marks (fun _ => rfl) fun _ => rfl) fun _ => ?_
      refine Follows.bind (Follows.onError (lines line.text) fun error => ?_) fun _ => ih
      refine Keeps.bind (markable.marks (fun _ => rfl) fun _ => rfl) fun _ => ?_
      exact Keeps.bind (markable.adds env error) fun _ => Keeps.fail _

variable {exec exec' : Text → Run σ Unit} (abandons : Keeps Inv Exit.any (Flow.abandonAll env))
  (lines : ∀ text, Follows Inv (Interpreter.runLine env exec text) (Interpreter.runLine env exec' text))

include abandons lines

theorem runScriptLine (text : Text) (number : Nat) :
    Follows Inv (Interpreter.runScriptLine env exec text number) (Interpreter.runScriptLine env exec' text number) := by
  refine Follows.next (markable.marks (fun _ => rfl) fun _ => rfl) fun _ => ?_
  refine Follows.bind (lines text).attempt fun result => ?_
  split
  · exact (Keeps.pure _).follows
  · refine Keeps.follows (Keeps.bind (markable.marks (fun _ => rfl) fun _ => rfl) fun _ => ?_)
    exact Keeps.bind abandons fun _ => Keeps.pure _
  · exact (Keeps.bind (markable.adds env _) fun _ => Keeps.pure _).follows
  · exact (Keeps.throw trivial).follows

theorem runFolded (text : Text) (number : Nat) :
    Follows Inv (Interpreter.runFolded env exec text number) (Interpreter.runFolded env exec' text number) := by
  unfold Interpreter.runFolded
  split
  · exact runScriptLine markable abandons lines _ _
  · exact (Keeps.pure _).follows

theorem runScript (bound : Nat) (reader : Reader) (part : Option Lines.Open) (number : Nat) :
    Follows Inv (Interpreter.runScript env exec bound reader part number)
      (Interpreter.runScript env exec' bound reader part number) := by
  induction bound generalizing reader part number with
  | zero => exact (Keeps.throw trivial).follows
  | succ bound ih =>
      have goesOn (reader : Reader) (text : Text) (number : Nat) : Follows Inv
          (do if ← Interpreter.runFolded env exec text number then
                Interpreter.runScript env exec bound reader none number)
          (do if ← Interpreter.runFolded env exec' text number then
                Interpreter.runScript env exec' bound reader none number) := by
        refine Follows.bind (runFolded markable abandons lines _ _) fun continues => ?_
        split
        · exact ih _ _ _
        · exact (Keeps.pure _).follows
      refine Follows.read fun session => Follows.next (Keeps.ofFault _) fun given => ?_
      obtain ⟨raw, reader⟩ := given
      cases raw with
      | none =>
          cases part with
          | none => exact (Keeps.pure _).follows
          | some part => exact goesOn _ _ _
      | some raw =>
          have extends' : Follows Inv
              (do
                if (Lines.extend part raw).2.1 then
                  Interpreter.runScript env exec bound reader (some (Lines.extend part raw).1) (number + 1)
                else if ← Interpreter.runFolded env exec (Lines.extend part raw).1.text (number + 1) then
                  Interpreter.runScript env exec bound reader none (number + 1))
              (do
                if (Lines.extend part raw).2.1 then
                  Interpreter.runScript env exec' bound reader (some (Lines.extend part raw).1) (number + 1)
                else if ← Interpreter.runFolded env exec' (Lines.extend part raw).1.text (number + 1) then
                  Interpreter.runScript env exec' bound reader none (number + 1)) := by
            split
            · exact ih _ _ _
            · exact goesOn _ _ _
          dsimp only
          split
          · exact Follows.next (markable.reports _) fun _ => extends'
          · exact extends'

theorem runOpened (place : Location) :
    Follows Inv (Interpreter.runOpened env exec place) (Interpreter.runOpened env exec' place) := by
  refine Follows.bind (runScript markable abandons lines _ _ _ _) fun _ => Follows.read fun session => ?_
  exact (Keeps.bind (Keeps.forM fun problem => markable.reports _) fun _ => abandons).follows

end Scripts

end Follows

end Run

open Run

namespace Allows

variable {env : Env σ} {may shares : Text → Prop} {Inv : Session σ → Prop} (allows : Allows env may shares Inv)
  {exec exec' : Text → Run σ Unit}

include allows

theorem deeperAlike {calls : Nat} {program other : Run σ α} {session : Session σ} (holds : Inv session)
    (inner : Alike Inv program other { session with depth := session.depth + calls }) :
    Alike Inv (Run.deeper calls program) (Run.deeper calls other) session :=
  Alike.deeper (fun _ _ holds => allows.quiet holds rfl rfl (List.Subset.refl _)) holds inner

theorem deeperFollows {calls : Nat} {program other : Run σ α} (inner : Follows Inv program other) :
    Follows Inv (Run.deeper calls program) (Run.deeper calls other) := by
  intro session holds
  exact allows.deeperAlike holds (inner (allows.quiet holds rfl rfl (List.Subset.refl _)))

theorem markable : Markable Inv where
  marks loops _ := allows.aside loops
  reports text := allows.fixed fun reference => Respects.report (Fixed.printable reference) text

theorem runsLine (lines : ∀ text, Follows Inv (exec text) (exec' text)) (line : Text) :
    Follows Inv (Interpreter.runLine env exec line) (Interpreter.runLine env exec' line) := by
  refine Follows.next (allows.aside fun _ => rfl) fun _ => Follows.next (allows.emits _ _) fun _ => ?_
  refine Follows.bind (Follows.onError (lines line) fun error => ?_) fun _ => (allows.emits _ _).follows
  exact Keeps.read fun session => Keeps.bind (allows.emits _ _) fun _ => Keeps.throw trivial

section Loops

variable {runs runs' : Text → Run σ Unit} (lines : ∀ text, Follows Inv (runs text) (runs' text))

include lines

theorem replays (depth conditions : Nat) (body : List BodyLine) (passes pass : Nat) :
    Follows Inv (Flow.replay env runs depth conditions body passes pass)
      (Flow.replay env runs' depth conditions body passes pass) := by
  induction passes generalizing pass with
  | zero => exact (Keeps.throw trivial).follows
  | succ passes ih =>
      refine Follows.next (allows.puts allows.index _) fun _ => ?_
      refine Follows.bind (Follows.replayLines allows.markable lines conditions body) fun _ =>
        Follows.read fun session => ?_
      split
      · exact (Keeps.pure _).follows
      · refine Follows.next (allows.advances depth) fun answer => ?_
        split
        · exact ih (pass + 1)
        · exact (Keeps.pure _).follows

theorem endsLoop : Follows Inv (Flow.endLoop env runs) (Flow.endLoop env runs') := by
  refine Follows.read fun session => ?_
  dsimp only
  split
  · exact (Keeps.pure _).follows
  · refine Follows.bind (Follows.always ?_ (allows.finishes _ _)) fun answer => ?_
    · split
      · have resumes : Keeps Inv Exit.any
            (Run.modifyFrame (·.modifyLoop ({ · with mode := .replaying })) : Run σ Unit) := by
          refine allows.modifyFrame fun frame => ?_
          have same : (frame.modifyLoop ({ · with mode := .replaying })).bound = frame.bound := by
            cases loops : frame.loops <;> simp [Frame.bound, Frame.modifyLoop, loops, Loop.binds?]
          rw [same]
          exact List.Subset.refl _
        exact Follows.next resumes fun _ => allows.deeperFollows (allows.replays lines _ _ _ _ _)
      · exact (Keeps.pure _).follows
    · exact (Keeps.guard _ _ (Keeps.guard _ _ (Keeps.pure _))).follows

end Loops

section Lines

variable (lines : ∀ text, Follows Inv (exec text) (exec' text))

include lines

theorem collects (line : Text) :
    Follows Inv (Interpreter.collect env exec line) (Interpreter.collect env exec' line) := by
  refine Follows.read fun session => ?_
  dsimp only
  refine Follows.next (allows.aside fun _ => rfl) fun _ => ?_
  split
  · exact (Keeps.fail _).follows
  · exact allows.endsLoop (allows.runsLine lines)
  · refine (allows.modifyFrame fun frame => ?_).follows
    have same : (frame.modifyLoop fun loop => { loop with lines := loop.lines ++ [⟨line, session.frame.line⟩] }).bound =
        frame.bound := by
      cases loops : frame.loops <;> simp [Frame.bound, Frame.modifyLoop, loops, Loop.binds?]
    rw [same]
    exact List.Subset.refl _

theorem runsOpened (place : Location) :
    Follows Inv (Interpreter.runOpened env exec place) (Interpreter.runOpened env exec' place) :=
  Follows.runOpened allows.markable allows.abandonsAll (allows.runsLine lines) place

theorem parsesString (rest : Text) :
    Follows Inv (Interpreter.parseString exec rest) (Interpreter.parseString exec' rest) := by
  refine Follows.next (allows.fixed fun _ => Command.require_respects _ _ _) fun _ => ?_
  refine Follows.next (allows.fixed fun reference =>
    Respects.readVariable (Fixed.printable reference).toEvaluable rest) fun stored => ?_
  exact allows.deeperFollows (lines _)

end Lines

end Allows

namespace Interpreter

/-- An inline block runs with the scope of the file about to run, and hands that scope on. -/
theorem runBlock_run (exec : Text → Run σ Unit) (block : Text) (session : Session σ) :
    runBlock exec block session =
      match Run.deeper 4 (exec block) { session with store := session.store.openPending } with
      | .ok _ reached => .ok reached.store.closePending.1 { reached with store := reached.store.closePending.2 }
      | .error exit reached => .error exit { reached with store := reached.store.closePending.2 } := by
  change EStateM.bind (Run.attempt (Run.deeper 4 (exec block))) _
    { session with store := session.store.openPending } = _
  unfold EStateM.bind Run.attempt
  cases Run.deeper 4 (exec block) { session with store := session.store.openPending } <;> rfl

def entered (frame : Frame) (scope : Scope) (session : Session σ) : Session σ :=
  { session with frame, callers := session.frame :: session.callers, store := session.store.pushScope scope }

theorem inFrame_run (program : Run σ Unit) (frame : Frame) (scope : Scope) (session : Session σ) :
    (do
      enterFrame frame scope
      Run.always program leaveFrame : Run σ Unit) session =
      match program (entered frame scope session) with
      | .ok _ reached => .ok () (left reached)
      | .error exit reached => .error exit (left reached) := by
  change EStateM.bind (Run.attempt program) _ (entered frame scope session) = _
  unfold EStateM.bind Run.attempt
  cases program (entered frame scope session) <;> rfl

end Interpreter

namespace Allows

variable {env : Env σ} {may shares : Text → Prop} {Inv : Session σ → Prop} {exec exec' : Text → Run σ Unit}

theorem runsBlock {Block : Session σ → Prop} (inBlock : Allows env may shares Block)
    (statements : ∀ text, Follows Block (exec text) (exec' text)) {session : Session σ}
    (opens : Block { session with store := session.store.openPending })
    (closes : ∀ reached, Block reached → Inv { reached with store := reached.store.closePending.2 }) (block : Text) :
    Alike Inv (Interpreter.runBlock exec block) (Interpreter.runBlock exec' block) session ∧
      ∀ scope after, Interpreter.runBlock exec block session = .ok scope after →
        ∃ reached, Block reached ∧ scope = reached.store.closePending.1 ∧
          after = { reached with store := reached.store.closePending.2 } := by
  have inner : Follows Block (Run.deeper 4 (exec block)) (Run.deeper 4 (exec' block)) :=
    inBlock.deeperFollows (statements block)
  obtain ⟨same, kept⟩ := inner opens
  have run := Interpreter.runBlock_run exec block session
  have run' := Interpreter.runBlock_run exec' block session
  rw [same] at run'
  cases ran : Run.deeper 4 (exec block) { session with store := session.store.openPending } with
  | ok _ reached =>
      rw [ran] at run run' kept
      cases kept with
      | ok still =>
          refine ⟨⟨run'.trans run.symm, run ▸ .ok (closes reached still)⟩, fun scope after ended => ?_⟩
          cases run.symm.trans ended
          exact ⟨reached, still, rfl, rfl⟩
  | error exit reached =>
      rw [ran] at run run' kept
      cases kept with
      | error still kind =>
          refine ⟨⟨run'.trans run.symm, run ▸ .error (closes reached still) kind⟩, fun scope after ended => ?_⟩
          cases run.symm.trans ended

theorem runsFile (allows : Allows env may shares Inv) {File : Session σ → Prop} (inFile : Allows env may shares File)
    (lines : ∀ text, Follows File (exec text) (exec' text)) {session : Session σ} (holds : Inv session) {frame : Frame}
    {scope : Scope} (enters : File (Interpreter.entered frame scope session))
    (leaves : ∀ reached, File reached → Inv (Interpreter.left reached)) (place : Location) :
    Alike Inv
      (Run.deeper 5 do
        Interpreter.enterFrame frame scope
        Run.always (Interpreter.runOpened env exec place) Interpreter.leaveFrame)
      (Run.deeper 5 do
        Interpreter.enterFrame frame scope
        Run.always (Interpreter.runOpened env exec' place) Interpreter.leaveFrame) session := by
  refine allows.deeperAlike holds ?_
  have deep : File (Interpreter.entered frame scope { session with depth := session.depth + 5 }) :=
    inFile.quiet enters rfl rfl (List.Subset.refl _)
  obtain ⟨same, kept⟩ := inFile.runsOpened lines place deep
  refine ⟨by rw [Interpreter.inFrame_run, Interpreter.inFrame_run, same], ?_⟩
  rw [Interpreter.inFrame_run]
  generalize Interpreter.runOpened env exec place _ = result at kept ⊢
  cases kept with
  | ok still => exact .ok (leaves _ still)
  | error still kind => exact .error (leaves _ still) kind

theorem parsesFile (allows : Allows env may shares Inv) {session : Session σ} (holds : Inv session)
    (Ready : Scope → Session σ → Prop) (bare : Ready [] session)
    (blocks : ∀ block, Alike Inv (Interpreter.runBlock exec block) (Interpreter.runBlock exec' block) session ∧
      ∀ scope after, Interpreter.runBlock exec block session = .ok scope after → Ready scope after)
    (files : ∀ scope reached path place, Ready scope reached →
      Alike Inv
        (Run.deeper 5 do
          Interpreter.enterFrame { path := some path } scope
          Run.always (Interpreter.runOpened env exec place) Interpreter.leaveFrame)
        (Run.deeper 5 do
          Interpreter.enterFrame { path := some path } scope
          Run.always (Interpreter.runOpened env exec' place) Interpreter.leaveFrame) reached) (target : ScriptTarget) :
    Alike Inv (Interpreter.parseFile env exec target) (Interpreter.parseFile env exec' target) session := by
  refine Alike.read ?_
  dsimp only
  refine Alike.bindEnded (.of_keeps (allows.fixed fun _ => FileArguments.checkPath_respects _) holds)
    fun _ _ checked _ => ?_
  rw [stays_of_respects (fun _ => FileArguments.checkPath_respects _) checked]
  refine Alike.read (Alike.bindEnded (.of_keeps (Keeps.ofExcept (fun _ => trivial) _) holds)
    fun place _ located _ => ?_)
  rw [ofExcept_stays located]
  split
  · split
    · exact files _ _ _ _ bare
    · exact (blocks _).1.bindEnded fun scope after ended _ => files _ _ _ _ ((blocks _).2 scope after ended)
  · exact files _ _ _ _ bare

end Allows

namespace Interpreter

/-- The statement that a text leads to, as it is run: the text is not one that is read into a loop, passed over, refused
or part of a chain. -/
def due? (session : Session σ) (text : Text) : Option Text :=
  let line := Text.trim (Text.stripComment text)
  let run := rewrite session.frame.aliasTables line
  if line.isEmpty ∨ (Text.checkBalance line).toOption = none ∨
      session.frame.loops.head?.any (fun loop => loop.isCollecting || loop.mode = .leaving) ∨
      Flow.judge false session.frame.conditions run ≠ .runs then none
  else some run

theorem passConditions_runs {env : Env σ} {leaving : Bool} {line : Text} {session after : Session σ}
    (passed : passConditions env leaving line session = .ok false after) :
    after = session ∧ Flow.judge leaving session.frame.conditions line = .runs := by
  have meets : Meets
      (fun settled reached => settled = false →
        reached = session ∧ Flow.judge leaving session.frame.conditions line = .runs)
      (fun _ _ => True) (passConditions env leaving line) session := by
    refine Meets.read ?_
    dsimp only
    split
    · rename_i judged
      exact Meets.pure fun _ => ⟨rfl, judged⟩
    · exact Meets.change_bind (Meets.pure nofun)
    · exact Meets.throw trivial
    · -- a condition that has been decided is all there was to do
      refine Meets.bind Meets.any fun decided _ _ => Meets.bind Meets.any fun _ _ _ => ?_
      cases decided with
      | ok value => exact Meets.pure nofun
      | error error => exact Meets.throw trivial
  exact meets.ended passed rfl

theorem statement_due (env : Env σ) (exec : Text → Run σ Unit) {session : Session σ} {text line : Text}
    (due : due? session text = some line) : statement env exec text session = runStatement env exec line session := by
  simp only [due?] at due
  split at due
  · cases due
  rename_i free
  simp only [not_or, Bool.not_eq_true, not_not] at free
  obtain ⟨filled, balance, idle, judged⟩ := free
  obtain rfl := Option.some.inj due
  obtain ⟨balanced⟩ : Nonempty (Text.checkBalance (Text.trim (Text.stripComment text)) = .ok ()) := by
    cases result : Text.checkBalance (Text.trim (Text.stripComment text)) with
    | error error => simp [result, Except.toOption] at balance
    | ok _ => exact ⟨rfl⟩
  have collecting : session.frame.loops.head?.any Loop.isCollecting = false := by
    cases top : session.frame.loops.head? <;> simp_all
  have leaving : session.frame.loops.head?.any (·.mode = .leaving) = false := by
    cases top : session.frame.loops.head? <;> simp_all
  have passes : passConditions env false
    (rewrite session.frame.aliasTables (Text.trim (Text.stripComment text))) session =
      .ok false session := by
    simp only [passConditions, bind, EStateM.bind, EStateM.get_apply, judged]
    rfl
  unfold statement
  simp only [filled, Bool.false_eq_true, ↓reduceIte, balanced, bind, EStateM.bind, Run.ofMalformed, Run.ofExcept,
    pure, EStateM.pure, EStateM.get_apply, collecting, leaving, Bool.not_false]
  unfold rewrite at passes ⊢
  rw [passes]
  rfl

end Interpreter

namespace Allows

variable {env : Env σ} {may shares : Text → Prop} {Inv : Session σ → Prop} (allows : Allows env may shares Inv)
  {exec exec' : Text → Run σ Unit}

include allows

/-- Commands follow each other, if a script file that is run does, the name that is bound without a check may be set and
what is made global may be so. -/
theorem runsCommand (lines : ∀ text, Follows Inv (exec text) (exec' text)) {line : Text} {command : Command}
    (known : Interpreter.commandOf? line = some command)
    (allowed : ∀ name, Interpreter.forced? line = some name → may name)
    (shared : ∀ name, Interpreter.published? line = some name → shares name) (plain : Flow.isForeach line = false)
    {session : Session σ} (holds : Inv session)
    (parses : command = .parse → ∀ target,
      Alike Inv (Interpreter.parseFile env exec target) (Interpreter.parseFile env exec' target) session) :
    Alike Inv (Interpreter.runCommand env exec command (Text.trim (Text.cutOrAll ' ' line).2))
      (Interpreter.runCommand env exec' command (Text.trim (Text.cutOrAll ' ' line).2)) session := by
  have forced (is : command = .sprint ∨ command = .sprintf) :
      may (Text.cutOrAll ' ' (Text.trim (Text.cutOrAll ' ' line).2)).1 := by
    refine allowed _ ?_
    rcases is with rfl | rfl <;> simp [Interpreter.forced?, plain, known]
  have fixed {program : Run σ Unit} (respects : ∀ reference,
    Printable (Fixed reference) → Respects (Fixed reference) program) :
      Alike Inv program program session :=
        .of_keeps (allows.fixed fun reference => respects _ (Fixed.printable reference)) holds
  cases command with
  | addAlias => exact .of_keeps (allows.addsAlias _) holds
  | removeAlias => exact .of_keeps (allows.removesAlias _) holds
  | print => exact fixed fun _ printable => Command.runPrint_respects printable env _
  | printf => exact fixed fun _ printable => Command.runPrintf_respects printable env _
  | sprint => exact .of_keeps (allows.sprints _ (forced (.inl rfl))) holds
  | sprintf => exact .of_keeps (allows.sprints _ (forced (.inr rfl))) holds
  | printOpen => exact fixed fun _ printable => Command.runPrintOpen_respects printable env _
  | printClose => exact fixed fun _ printable => Respects.closePrint printable
  | writeOpen => exact fixed fun _ printable => Command.runWriteOpen_respects printable env _
  | writeClose => exact fixed fun _ printable => Respects.closeWrite printable
  | parse =>
      refine Alike.read (Alike.bindEnded (.of_keeps (Keeps.ofFailure _) holds) fun target after ended _ => ?_)
      rw [ofExcept_stays ended]
      exact parses rfl target
  | parseString => exact allows.parsesString lines _ holds
  | leaveFile =>
      refine .of_keeps (Keeps.read fun session => ?_) holds
      split
      · exact Keeps.throw trivial
      · exact Keeps.fail _
  | quit => exact .of_keeps (allows.quits _) holds
  | set => exact .of_keeps (allows.sets _) holds
  | setLogical => exact .of_keeps (allows.setsLogical _) holds
  | unset => exact .of_keeps (allows.unsets _) holds
  | publish => exact .of_keeps (allows.publishes (shared _ (by simp [Interpreter.published?, plain, known]))) holds
  | system => exact fixed fun _ printable => Command.runSystem_respects printable env _
  | wait => exact fixed fun _ printable => Command.runWait_respects printable env _
  | relativePaths =>
      refine .of_keeps ?_ holds
      unfold Interpreter.runCommand Command.runRelativePaths
      dsimp only
      split
      · exact allows.aside fun _ => rfl
      · exact Keeps.fail _
  | leaveLoop => exact .of_keeps allows.leavesLoop holds

theorem runsStatement (lines : ∀ text, Follows Inv (exec text) (exec' text)) {line : Text}
    (allowed : ∀ name, Interpreter.forced? line = some name → may name)
    (shared : ∀ name, Interpreter.published? line = some name → shares name) {session : Session σ} (holds : Inv session)
    (parses : Interpreter.commandOf? line = some .parse → ∀ target,
      Alike Inv (Interpreter.parseFile env exec target) (Interpreter.parseFile env exec' target) session) :
    Alike Inv (Interpreter.runStatement env exec line) (Interpreter.runStatement env exec' line) session := by
  unfold Interpreter.runStatement
  split
  · rename_i opens
    refine .of_keeps (allows.startsLoop fun header read name binds => allowed name ?_) holds
    simp only [Interpreter.forced?, opens, ↓reduceIte, read, Except.toOption, Option.bind_some, binds]
  rename_i plain
  split
  · exact .of_keeps (Keeps.fail _) holds
  split
  · exact .of_keeps (allows.fixed fun reference => Command.runShell_respects (Fixed.printable reference) env _) holds
  rename_i notShell
  dsimp only
  cases found : Command.of? (Text.cutOrAll ' ' line).1 with
  | some command =>
      have known : Interpreter.commandOf? line = some command := by
        rw [Interpreter.commandOf?, if_neg notShell, found]
      exact allows.runsCommand lines known allowed shared (by simpa using plain) holds fun is => parses (is ▸ known)
  | none =>
      refine .of_keeps ?_ holds
      dsimp only
      split
      · exact Keeps.bind (allows.fixed fun reference =>
          Expr.valueOf_respects (Fixed.printable reference).toEvaluable env line) fun _ => Keeps.pure _
      · refine Keeps.bind (allows.assigns line) fun assigned => ?_
        split
        · exact allows.fixed fun reference => Command.dispatch_respects (Fixed.printable reference) env line
        · exact Keeps.pure _

theorem states (lines : ∀ text, Follows Inv (exec text) (exec' text)) {text : Text} {session : Session σ}
    (holds : Inv session)
    (due : ∀ line, Interpreter.due? session text = some line →
      (∀ name, Interpreter.forced? line = some name → may name) ∧
        (∀ name, Interpreter.published? line = some name → shares name) ∧
        (Interpreter.commandOf? line = some .parse → ∀ target,
          Alike Inv (Interpreter.parseFile env exec target) (Interpreter.parseFile env exec' target) session)) :
    Alike Inv (Interpreter.statement env exec text) (Interpreter.statement env exec' text) session := by
  unfold Interpreter.statement
  extract_lets line
  split
  · exact .of_keeps (Keeps.pure _) holds
  rename_i filled
  refine Alike.bindEnded (.of_keeps (Keeps.ofMalformed _) holds) fun _ after balanced _ => ?_
  have balance : (Text.checkBalance line).toOption = some () := by
    cases result : Text.checkBalance line with
    | error error => simp [result, Run.ofMalformed, Run.ofExcept, EStateM.throw_apply] at balanced
    | ok value => rfl
  rw [ofExcept_stays balanced]
  refine Alike.read ?_
  dsimp only
  split
  · exact allows.collects lines _ holds
  rename_i reading
  refine Alike.bindEnded (.of_keeps (allows.passesConditions _ _) holds) fun settled after passed still => ?_
  split
  · exact .of_keeps (Keeps.pure _) still
  rename_i goesOn
  split
  · rename_i stays
    have unsettled : settled = false := by simpa using goesOn
    obtain ⟨same, judged⟩ := Interpreter.passConditions_runs (unsettled ▸ passed)
    rw [same]
    have quiet : session.frame.loops.head?.any (·.mode = .leaving) = false := by simpa using stays
    rw [quiet] at judged
    -- nothing is known of the line but that it is due, so this has to be read off the branches taken
    have isDue : Interpreter.due? session text = some (Interpreter.rewrite session.frame.aliasTables line) := by
      have neither : session.frame.loops.head?.any (fun loop => loop.isCollecting || loop.mode = .leaving) = false := by
        cases top : session.frame.loops.head? with
        | none => rfl
        | some loop =>
            rw [top] at reading quiet
            simp only [Option.any_some] at reading quiet ⊢
            simp [reading, quiet]
      have run : Flow.judge false session.frame.conditions (Interpreter.rewrite session.frame.aliasTables line) =
          .runs :=
        judged
      simp only [Interpreter.due?]
      rw [if_neg]
      simp only [not_or]
      exact ⟨filled, by simp [line, balance], by simp [neither], not_not_intro run⟩
    obtain ⟨allowed, shared, parses⟩ := due _ isDue
    exact allows.runsStatement lines allowed shared holds parses
  · exact .of_keeps (Keeps.pure _) still

end Allows

end CommandScript
