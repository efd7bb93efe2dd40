import CommandScript.Proofs.Blocks.Contracts
import CommandScript.Proofs.Confinement.Escapes

/-! The counter of open blocks while the body of a loop is being read. It is kept with the script, not with the
loop, and it is set back when a loop opens, so what it says of the loop that is being read is an invariant of all
lines, also of those that fail. One failure breaks it: a loop end that is refused because a chain is still open
has already been counted, and is not added to the body. -/

namespace CommandScript

variable {σ α : Type}

open Run

namespace Loop

def openBlocks (loop : Loop) : Int :=
  1 + loop.lines.countP (fun line => Flow.isForeach line.text) - loop.lines.countP (fun line => Flow.isEndfor line.text)

theorem openBlocks_read (loop : Loop) (line : BodyLine) :
    (loop.read [line]).openBlocks =
      loop.openBlocks + (if Flow.isForeach line.text then 1 else 0) - (if Flow.isEndfor line.text then 1 else 0) := by
  simp only [openBlocks, read, List.countP_append, List.countP_singleton]
  split <;> split <;> simp <;> omega

def reading (loop : Loop) : Bool × Int := (loop.isCollecting, loop.openBlocks)

end Loop

namespace Frame

/-- No body but that of the innermost loop is being read. -/
def ReadsTop (frame : Frame) : Prop := ∀ loop ∈ frame.loops.tail, loop.isCollecting = false

/-- The counter is short of the blocks that the body being read leaves open by at most a number; if it is short by
nothing, the loop can still be closed. -/
structure Counts (slack : Nat) (frame : Frame) : Prop where
  below : frame.ReadsTop
  counted : ∀ loop, frame.loops.head? = some loop → loop.isCollecting →
    ∃ missed ≤ slack, frame.blocks.loops + missed = loop.openBlocks ∧ (missed = 0 → 1 ≤ frame.blocks.loops)

def Idle (frame : Frame) : Prop := ∀ loop ∈ frame.loops, loop.isCollecting = false

variable {frame other : Frame} {slack more : Nat}

theorem Idle.counts (idle : frame.Idle) : frame.Counts slack where
  below loop member := idle loop (List.mem_of_mem_tail member)
  counted loop top collects := by
    rw [idle loop (List.mem_of_mem_head? top)] at collects
    cases collects

theorem Counts.top (loop : Loop) {outer : List Loop} (loops : frame.loops = loop :: outer)
    (below : ∀ inner ∈ outer, inner.isCollecting = false)
    (counted : ∃ missed ≤ slack, frame.blocks.loops + missed = loop.openBlocks ∧
      (missed = 0 → 1 ≤ frame.blocks.loops)) :
    frame.Counts slack where
  below := by simpa [ReadsTop, loops] using below
  counted found top _ := by
    rw [loops] at top
    cases top
    exact counted

theorem Counts.mono (counts : frame.Counts slack) (enough : slack ≤ more) : frame.Counts more where
  below := counts.below
  counted loop top collects := by
    obtain ⟨missed, few, same, closable⟩ := counts.counted loop top collects
    exact ⟨missed, by omega, same, closable⟩

theorem Counts.idle (counts : frame.Counts slack) (read : frame.loops.head?.any Loop.isCollecting = false) :
    frame.Idle := by
  intro loop member
  have below : ∀ loop ∈ frame.loops.tail, loop.isCollecting = false := counts.below
  cases loops : frame.loops with
  | nil =>
      rw [loops] at member
      cases member
  | cons first rest =>
      rw [loops] at member read below
      rcases List.mem_cons.mp member with same | inner
      · subst same
        simpa using read
      · exact below loop inner

theorem ReadsTop.drop (below : frame.ReadsTop) (same : other.loops = frame.loops.drop 1) : other.Idle := by
  intro loop member
  rw [same, List.drop_one] at member
  exact below loop member

theorem Counts.congr (counts : frame.Counts slack) (loops : other.loops.map Loop.reading = frame.loops.map Loop.reading)
    (blocks : other.blocks = frame.blocks) : other.Counts slack := by
  obtain ⟨below, counted⟩ := counts
  unfold ReadsTop at below
  rw [← blocks] at counted
  cases there : frame.loops with
  | nil =>
      rw [there, List.map_nil, List.map_eq_nil_iff] at loops
      exact Idle.counts (by simp [Idle, loops])
  | cons first rest =>
      rw [there, List.map_cons, List.map_eq_cons_iff] at loops
      obtain ⟨loop, others, here, same, tails⟩ := loops
      rw [there] at below counted
      refine ⟨fun inner member => ?_, fun top found collects => ?_⟩
      · rw [here] at member
        have known : inner.reading ∈ rest.map Loop.reading := tails ▸ List.mem_map_of_mem member
        obtain ⟨twin, member, equal⟩ := List.mem_map.mp known
        exact (congrArg Prod.fst equal).symm.trans (below twin member)
      · rw [here] at found
        cases found
        rw [show loop.openBlocks = first.openBlocks from congrArg Prod.snd same]
        exact counted first rfl ((congrArg Prod.fst same).symm.trans collects)

end Frame

/-- What a failure adds to what the counter is short of: an end that comes before the end of a chain is counted. -/
def Exit.lag : Exit → Nat
  | .error problem => if problem.cause = .flow .missingEndif then 1 else 0
  | _ => 0

/-- The count is kept, but for the lag of a failure. -/
abbrev Run.Counts (slack : Nat) (program : Run σ α) (session : Session σ) : Prop :=
  Meets (fun _ after => after.frame.Counts slack) (fun exit after => after.frame.Counts (slack + exit.lag)) program
    session

abbrev Run.CountsLoosely (program : Run σ α) (session : Session σ) : Prop :=
  Meets (fun _ after => ∃ slack, after.frame.Counts slack) (fun _ after => ∃ slack, after.frame.Counts slack) program
    session

abbrev Run.Idles (program : Run σ α) (session : Session σ) : Prop :=
  Meets (fun _ after => after.frame.Idle) (fun _ after => after.frame.Idle) program session

variable {slack : Nat} {session : Session σ}

theorem Run.Idles.counts {program : Run σ α} (idles : Run.Idles program session) : Run.Counts slack program session :=
  idles.mono (fun _ _ idle => idle.counts) fun _ _ idle => idle.counts

theorem Run.Counts.loosely {program : Run σ α} (counts : Run.Counts slack program session) :
    Run.CountsLoosely program session := counts.mono (fun _ _ counts => ⟨_, counts⟩) fun _ _ counts => ⟨_, counts⟩

theorem Run.Counts.framed {program : Run σ α} (respects : ∀ reference, Respects (Framed reference) program)
    (counts : session.frame.Counts slack) : Run.Counts slack program session :=
  (Meets.framed respects counts).mono (fun _ _ counts => counts) fun _ _ counts => counts.mono (Nat.le_add_right _ _)

theorem Session.stop_frame (session : Session σ) (code : Int) : (session.stop code).frame = session.frame := by
  unfold Session.stop Session.closeFiles Session.closeWrite Session.closePrint
  split <;> split <;> rfl

namespace Flow

variable {env : Env σ} {runLine : Text → Run σ Unit}

theorem advance_counts (env : Env σ) (depth : Nat) (counts : session.frame.Counts slack) :
    Run.Counts slack (advance env depth) session := by
  have puts (name value : Text) {session : Session σ} (counts : session.frame.Counts slack) :
      Run.Counts slack (Run.put name value : Run σ Unit) session :=
    .framed (fun reference => Respects.put (Framed.traceable reference).toCommandable name value) counts
  have steps (source : LoopSource) {session : Session σ} (counts : session.frame.Counts slack) :
      (session.frame.modifyLoopAt depth fun loop => { loop with source }).Counts slack :=
    counts.congr (Frame.modifyLoopAt_view (by intro; rfl) _ _) rfl
  refine Meets.read ?_
  split
  · exact Meets.pure counts
  dsimp only
  split
  · split
    · exact Meets.pure counts
    · exact Meets.bind (puts _ _ counts) fun _ _ counts => Meets.change_bind (Meets.pure (steps _ counts))
  · refine Meets.change_bind ?_
    split
    · exact Meets.pure (steps _ counts)
    · exact Meets.bind (puts _ _ (steps _ counts)) fun _ _ counts => Meets.pure counts
  · exact Run.Counts.framed (fun reference =>
      askSource_respects (Framed.traceable reference).toCommandable env _ _ _ _) counts

/-- The lines of a body keep some count, whatever they do to it. -/
def KeepsCount (runLine : Text → Run σ Unit) : Prop :=
  ∀ text session, (∃ slack, session.frame.Counts slack) → Run.CountsLoosely (runLine text) session

theorem replayLines_counts (runs : KeepsCount runLine) (conditions : Nat) (lines : List BodyLine)
    (counts : ∃ slack, session.frame.Counts slack) :
    Run.CountsLoosely (replayLines env runLine conditions lines) session := by
  induction lines generalizing session with
  | nil => exact Meets.pure counts
  | cons line rest ih =>
      obtain ⟨slack, counts⟩ := counts
      have numbered : ∃ slack, ({ session.frame with line := line.number } : Frame).Counts slack :=
        ⟨slack, counts.below, counts.counted⟩
      refine Meets.change_bind (Meets.bind (Meets.onError (runs line.text _ numbered) (fun error reached counts => ?_)
        fun _ _ counts _ => counts) fun _ _ counts => ih counts)
      obtain ⟨slack, counts⟩ := counts
      have trimmed : (reached.frame.trimConditions conditions).Counts slack := ⟨counts.below, counts.counted⟩
      refine Meets.change_bind (Meets.bind (Run.Counts.framed (fun reference =>
        Report.add_respects (Framed.traceable reference) env error) trimmed).loosely fun _ _ counts => ?_)
      exact Meets.throw counts

theorem replay_counts (runs : KeepsCount runLine) (depth conditions : Nat) (lines : List BodyLine) (passes pass : Nat)
    (counts : ∃ slack, session.frame.Counts slack) :
    Run.CountsLoosely (replay env runLine depth conditions lines passes pass) session := by
  induction passes generalizing session pass with
  | zero => exact Meets.throw counts
  | succ passes ih =>
      obtain ⟨slack, counts⟩ := counts
      refine Meets.bind
        (Run.Counts.framed (fun reference => Respects.put (Framed.traceable reference).toCommandable _ _)
        counts).loosely fun _ _ counts => ?_
      refine Meets.bind (replayLines_counts runs conditions lines counts) fun _ reached counts => Meets.read ?_
      split
      · exact Meets.pure counts
      · obtain ⟨slack, counts⟩ := counts
        refine Meets.bind (advance_counts env depth counts).loosely fun answer _ counts => ?_
        split
        · exact ih (pass + 1) counts
        · exact Meets.pure counts

theorem finishLoop_idles (env : Env σ) (depth resume : Nat) (below : session.frame.ReadsTop) :
    Run.Idles (finishLoop env depth resume) session := by
  have dropped : ({ session.frame with line := resume, loops := session.frame.loops.drop 1 } : Frame).Idle :=
    below.drop rfl
  refine Meets.read ?_
  cases session.frame.loopAt? depth with
  | none => exact Meets.change dropped
  | some loop =>
      refine Meets.change_bind (Meets.change_bind ?_)
      rw [Session.noteEnd_frame]
      exact Meets.framed (fun reference => closeLoop_respects (Framed.notable reference) env loop) dropped

theorem replaying_counts (runs : KeepsCount runLine) (below : session.frame.ReadsTop) {loop : Loop}
    {outer : List Loop} (loops : session.frame.loops = loop :: outer) (depth conditions passes : Nat) :
    Run.CountsLoosely (do
      Run.modifyFrame (·.modifyLoop ({ · with mode := .replaying }))
      Run.deeper 5 (replay env runLine depth conditions loop.lines passes 1)) session := by
  have begun : (session.frame.modifyLoop ({ · with mode := .replaying })).Counts 0 := by
    refine Frame.Idle.counts fun other member => ?_
    simp only [Frame.modifyLoop, loops, List.modifyHead_cons, List.mem_cons] at member
    rcases member with same | inner
    · rw [same]
      rfl
    · exact below other (by simpa [loops] using inner)
  refine Meets.change_bind (Meets.deeper (fun _ => ?_) (fun _ _ _ counts => counts) (fun _ _ _ counts => counts)
    ⟨0, begun⟩)
  exact replay_counts runs _ _ _ _ _ ⟨0, begun⟩

theorem endLoop_idles (runs : KeepsCount runLine) (below : session.frame.ReadsTop) :
    Run.Idles (endLoop env runLine) session := by
  refine Meets.read ?_
  dsimp only
  cases loops : session.frame.loops with
  | nil => exact Meets.pure (by simp [Frame.Idle, loops])
  | cons loop outer =>
      have replays : Meets (fun _ after => after.frame.ReadsTop) (fun _ after => after.frame.ReadsTop)
          (if loop.mode = .reading then do
            Run.modifyFrame (·.modifyLoop ({ · with mode := .replaying }))
            Run.deeper 5 (replay env runLine outer.length session.frame.conditions.length loop.lines
              (budget env loop) 1)
          else pure .noMore) session := by
        split
        · exact (replaying_counts runs below loops _ _ _).mono (fun _ _ ⟨_, counts⟩ => counts.below)
            fun _ _ ⟨_, counts⟩ => counts.below
        · exact Meets.pure below
      refine Meets.bind (Meets.always replays (fun _ _ => finishLoop_idles env _ _)
        fun _ _ => finishLoop_idles env _ _) fun answer _ idle => ?_
      refine Meets.check idle ?_
      split
      · exact Meets.throw idle
      · exact Meets.pure idle

end Flow

/-- What becomes of a line of a body: it is refused as the end of the loop, which has been counted then; it ends
the loop; or it is counted, and is not the end of the last open loop. -/
theorem Flow.BlockCount.track_cases (count : BlockCount) (line : Text) :
    ((count.track line).2 = .error .missingEndif ∧ (count.track line).1.loops = count.loops - 1) ∨
      (count.track line).2 = .ok true ∨
      ((count.track line).2 = .ok false ∧
        (count.track line).1.loops =
          count.loops + (if isForeach line then 1 else 0) - (if isEndfor line then 1 else 0) ∧
        (isEndfor line → count.loops ≠ 1)) := by
  have passed (count : BlockCount) : (count.pass line).loops = count.loops + (if isForeach line then 1 else 0) := by
    unfold pass
    split
    · rfl
    · split
      · simp
      · split <;> simp
  unfold track
  by_cases ends : isEndfor line
  · simp only [ends, ↓reduceIte]
    by_cases last : count.loops - 1 = 0
    · simp only [last, ↓reduceIte]
      split
      · exact .inl ⟨rfl, rfl⟩
      · exact .inr (.inl rfl)
    · simp only [last, ↓reduceIte, passed]
      exact .inr (.inr ⟨trivial, by omega, fun _ => by omega⟩)
  · simp only [ends, Bool.false_eq_true, ↓reduceIte, passed]
    exact .inr (.inr ⟨trivial, by omega, nofun⟩)

def Interpreter.Counting (exec : Text → Run σ Unit) : Prop :=
  ∀ text slack session, session.frame.Counts slack → Run.Counts slack (exec text) session

namespace Interpreter

variable {env : Env σ} {exec : Text → Run σ Unit}

theorem emit_counts (env : Env σ) (event : Text) (args : List Text) (counts : session.frame.Counts slack) :
    Run.Counts slack (emit env event args) session :=
  .framed (fun reference => emit_respects (Framed.traceable reference) env event args) counts

theorem runLine_counts (counting : Counting exec) : Flow.KeepsCount (runLine env exec) := by
  rintro text session ⟨slack, counts⟩
  refine Meets.change_bind ?_
  have stated : ({ session.frame with statement := text } : Frame).Counts slack := ⟨counts.below, counts.counted⟩
  refine Meets.bind (emit_counts env _ _ stated).loosely fun _ _ counts => ?_
  obtain ⟨slack, counts⟩ := counts
  refine Meets.bind (Meets.onError (counting text slack _ counts).loosely (fun error _ counts => Meets.read ?_)
    fun _ _ counts _ => counts) fun _ _ counts => ?_
  · obtain ⟨slack, counts⟩ := counts
    exact Meets.bind (emit_counts env _ _ counts).loosely fun _ _ counts => Meets.throw counts
  · obtain ⟨slack, counts⟩ := counts
    exact (emit_counts env _ _ counts).loosely

/-- A line that is read is counted. If it is refused as the end of the loop, its count stays. -/
theorem collect_counts (counting : Counting exec) (line : Text) (counts : session.frame.Counts slack)
    (collects : session.frame.loops.head?.any Loop.isCollecting) :
      Run.Counts slack (collect env exec line) session := by
  obtain ⟨loop, outer, loops⟩ : ∃ loop outer, session.frame.loops = loop :: outer := by
    cases loops : session.frame.loops with
    | nil => simp [loops] at collects
    | cons loop outer => exact ⟨loop, outer, rfl⟩
  have below : ∀ inner ∈ outer, inner.isCollecting = false := by simpa [Frame.ReadsTop, loops] using counts.below
  obtain ⟨missed, few, same, closable⟩ := counts.counted loop (by rw [loops]; rfl) (by simpa [loops] using collects)
  refine Meets.of_eq (collect_counted exec line session) ?_
  rcases session.frame.blocks.track_cases line with ⟨result, counted⟩ | result | ⟨result, counted, inner⟩
  · rw [result]
    refine Meets.throw (Frame.Counts.top loop loops below ⟨missed + 1, ?_, ?_, by omega⟩)
    · simp only [Exit.lag, ↓reduceIte]
      omega
    · rw [counted]
      push_cast
      omega
  · rw [result]
    exact Run.Idles.counts (Flow.endLoop_idles (runLine_counts counting) counts.below)
  · rw [result]
    refine Meets.change (Frame.Counts.top (loop.read [⟨line, session.frame.line⟩]) ?_ below ⟨missed, few, ?_, ?_⟩)
    · simp only [Frame.modifyLoop, loops, List.modifyHead_cons]
      rfl
    · simp only [Frame.modifyLoop, Loop.openBlocks_read, counted]
      omega
    · intro none
      have open' := closable none
      simp only [Frame.modifyLoop, counted]
      by_cases ends : Flow.isEndfor line
      · have more := inner ends
        rw [if_pos ends]
        split <;> omega
      · rw [if_neg ends]
        split <;> omega

end Interpreter

namespace Command

theorem withAliasTables_counts {tables : List AliasTable} (counts : session.frame.Counts slack)
    (enough : tables.length = session.frame.loops.length + 1) : (session.frame.withAliasTables tables).Counts slack :=
  counts.congr (Frame.withAliasTables_view (by intros; rfl) enough) rfl

theorem writeLine_counts (text : Text) (counts : session.frame.Counts slack) :
    Run.Counts slack (Run.writeLine text) session :=
  .framed (fun reference => Respects.writeLine (Framed.traceable reference).toPrintable text) counts

theorem runAlias_counts (rest : Text) (counts : session.frame.Counts slack) :
    Run.Counts slack (runAlias rest) session := by
  refine Meets.read ?_
  dsimp only
  split
  · have lists {reached : Session σ} (counts : reached.frame.Counts slack) :
        Run.Counts slack (session.frame.aliasTables.flatten.forM fun entry =>
          Run.writeLine (entry.name ++ "=" ++ entry.value)) reached :=
      Meets.forM counts fun _ _ counts => writeLine_counts _ counts
    split
    · exact Meets.bind (writeLine_counts _ counts) fun _ _ counts => lists counts
    · exact lists counts
  · cases Alias.parse rest with
    | error error => exact Meets.throw (counts.mono (Nat.le_add_right _ _))
    | ok entry =>
        refine Meets.change (withAliasTables_counts counts ?_)
        rw [AliasTable.define_length, Frame.aliasTables_length]

theorem runUnalias_counts (env : Env σ) (rest : Text) (counts : session.frame.Counts slack) :
    Run.Counts slack (runUnalias env rest) session := by
  refine Meets.bind (Run.Counts.framed (fun _ => require_respects _ _ _) counts) fun _ _ counts => Meets.read ?_
  refine Meets.forM counts fun name reached counts => Meets.read (Meets.change_bind ?_)
  have removed : (reached.frame.withAliasTables (reached.frame.aliasTables.map (AliasTable.remove · name))).Counts
      slack :=
    withAliasTables_counts counts (by rw [List.length_map, Frame.aliasTables_length])
  split
  · exact writeLine_counts _ removed
  · exact Meets.pure removed

end Command

namespace Interpreter

variable {env : Env σ} {exec : Text → Run σ Unit}

theorem startLoop_counts (env : Env σ) (line : Text) (idle : session.frame.Idle) :
    Run.Counts slack (startLoop env line) session := by
  refine Meets.bind ((Meets.sameFrame (fun _ => Respects.ofCause _) session).mono (fun _ _ same => same)
    fun _ _ same => same ▸ idle.counts) fun header reached same => Meets.change_bind ?_
  have opens := Meets.sameFrame (fun reference => Flow.openLoop_respects (Framed.notable reference) env header)
    { reached with frame := { reached.frame with blocks := ⟨1, 0⟩ } }
  have resting : ({ reached.frame with blocks := ⟨1, 0⟩ } : Frame).Idle := same ▸ idle
  refine Meets.bind ((opens.yielding (Structured.openLoop_fresh env header)).mono (fun _ _ opened => opened)
    fun _ _ same => same ▸ resting.counts) fun loop after opened => Meets.change ?_
  obtain ⟨same, fresh⟩ := opened
  rw [same]
  refine Frame.Counts.top loop rfl resting ⟨0, by omega, ?_, fun _ => ?_⟩
  · simp [Loop.openBlocks, fresh.lines]
  · exact Int.le_refl 1

theorem runBlock_counts (counting : Counting exec) (block : Text) (counts : session.frame.Counts slack) :
    Run.Counts slack (runBlock exec block) session := by
  refine Meets.change_bind ?_
  refine Meets.attempt_bind (Meets.deeper (fun _ => counting block slack _ counts) (fun _ _ _ counts => counts)
    (fun _ _ _ counts => counts) counts) (fun _ _ counts => ?_) fun _ _ counts => ?_
  · exact Meets.read (Meets.change_bind (Meets.pure counts))
  · exact Meets.read (Meets.change_bind (Meets.throw counts))

theorem parseFile_counts (confined : ∀ around text, Confined around (Exit.leavesLine around) (exec text))
    (counting : Counting exec) (target : ScriptTarget) (counts : session.frame.Counts slack) :
    Run.Counts slack (parseFile env exec target) session := by
  have enters (place : Location) (path : Text) (scope : Scope) {reached : Session σ}
      (counts : reached.frame.Counts slack) : Run.Counts slack (Run.deeper 5 do
        enterFrame { path := some path } scope
        Run.always (runOpened env exec place) leaveFrame : Run σ Unit) reached := by
    have unmoved := (inFile_unmoved env confined path place scope reached (.refl reached)).meets
    exact unmoved.mono (fun _ _ same => same.frame ▸ counts)
      fun _ _ same => same.frame ▸ counts.mono (Nat.le_add_right _ _)
  refine Meets.read (Meets.bind (Run.Counts.framed (fun _ => FileArguments.checkPath_respects _) counts)
    fun _ _ counts => Meets.read ?_)
  refine Meets.bind (Run.Counts.framed (fun _ => Respects.ofExcept _ _) counts) fun place _ counts => ?_
  split
  · split
    · exact enters place _ _ counts
    · exact Meets.bind (runBlock_counts counting _ counts) fun scope _ counts => enters place _ scope counts
  · exact enters place _ _ counts

theorem parseString_counts (counting : Counting exec) (rest : Text) (counts : session.frame.Counts slack) :
    Run.Counts slack (parseString exec rest) session := by
  refine Meets.bind (Run.Counts.framed (fun _ => Command.require_respects _ _ _) counts) fun _ _ counts => ?_
  refine Meets.bind (Run.Counts.framed (fun reference =>
    Respects.readVariable (Framed.traceable reference).toEvaluable rest) counts) fun stored _ counts => ?_
  exact Meets.deeper (fun _ => counting _ slack _ counts) (fun _ _ _ counts => counts)
    (fun _ _ _ counts => counts) counts

theorem runLeaveLoop_counts (idle : session.frame.Idle) : Run.Counts slack (Command.runLeaveLoop) session := by
  refine Meets.read (Meets.check idle.counts (Meets.change (Frame.Idle.counts ?_)))
  intro loop member
  cases loops : session.frame.loops with
  | nil => simp [Frame.modifyLoop, loops] at member
  | cons first rest =>
      simp only [Frame.modifyLoop, loops, List.modifyHead_cons, List.mem_cons] at member
      rcases member with same | inner
      · rw [same]
        rfl
      · exact idle loop (by simp [loops, inner])

theorem runCommand_counts (confined : ∀ around text, Confined around (Exit.leavesLine around) (exec text))
    (counting : Counting exec) (command : Command) (rest : Text) (idle : session.frame.Idle) :
    Run.Counts slack (runCommand env exec command rest) session := by
  cases plain : command.isPlain with
  | true =>
      exact .framed (fun reference =>
        runCommand_respects (Framed.traceable reference).toCommandable env exec plain rest)
        idle.counts
  | false =>
      cases command with
      | addAlias => exact Command.runAlias_counts rest idle.counts
      | removeAlias => exact Command.runUnalias_counts env rest idle.counts
      | parse =>
          refine Meets.read (Meets.bind (Run.Counts.framed (fun _ => Respects.ofFailure _) idle.counts)
            fun target _ counts => ?_)
          exact parseFile_counts confined counting target counts
      | parseString => exact parseString_counts counting rest idle.counts
      | leaveFile => exact .framed Framed.runLeaveFile idle.counts
      | quit => exact .framed (Framed.runQuit env rest) idle.counts
      | relativePaths =>
          unfold runCommand Command.runRelativePaths
          dsimp only
          split
          · rename_i flag _
            have kept : ({ session.frame with relativePaths := flag } : Frame).Idle := idle
            exact Meets.change kept.counts
          · exact Meets.throw idle.counts
      | leaveLoop => exact runLeaveLoop_counts idle
      | print | printf | sprint | sprintf | printOpen | printClose | writeOpen | writeClose | set | setLogical |
        unset | publish | system | wait => cases plain

theorem runStatement_counts (confined : ∀ around text, Confined around (Exit.leavesLine around) (exec text))
    (counting : Counting exec) (line : Text) (idle : session.frame.Idle) :
    Run.Counts slack (runStatement env exec line) session := by
  by_cases plain : isPlain line
  · exact .framed (fun reference => runStatement_respects (Framed.traceable reference).toCommandable env exec plain)
      idle.counts
  unfold runStatement
  split
  · exact startLoop_counts env line idle
  split
  · exact Meets.throw idle.counts
  split
  · exact .framed (fun reference => Command.runShell_respects (Framed.traceable reference).toPrintable env _)
      idle.counts
  dsimp only
  split
  · exact runCommand_counts confined counting _ _ idle
  · rename_i notForeach notEndfor notShell _ none
    exact absurd (by simp_all [isPlain]) plain

theorem passConditions_idles (env : Env σ) (leaving : Bool) (line : Text) (idle : session.frame.Idle) :
    Run.Idles (passConditions env leaving line) session := by
  refine Meets.read ?_
  dsimp only
  split
  · exact Meets.pure idle
  · exact Meets.change_bind (Meets.pure idle)
  · exact Meets.throw idle
  · rename_i word text _
    have decides := Meets.framed (fun reference =>
      decideCondition_respects (Framed.traceable reference).toEvaluable env word text) idle
    refine Meets.caught_bind decides (fun _ _ idle => ?_) (fun _ _ idle => ?_) fun _ _ idle _ => idle
    · exact Meets.change_bind (Meets.pure idle)
    · exact Meets.change_bind (Meets.throw idle)

theorem statement_counts (confined : ∀ around text, Confined around (Exit.leavesLine around) (exec text))
    (counting : Counting exec) (text : Text) (counts : session.frame.Counts slack) :
    Run.Counts slack (statement env exec text) session := by
  unfold statement
  dsimp only
  split
  · exact Meets.pure counts
  refine Meets.bind ((Meets.sameFrame (fun _ => Respects.ofMalformed _) session).mono (fun _ _ same => same ▸ counts)
    fun _ _ same => same ▸ counts.mono (Nat.le_add_right _ _)) fun _ reached counts => Meets.read ?_
  by_cases collects : reached.frame.loops.head?.any Loop.isCollecting
  · rw [if_pos collects]
    exact collect_counts counting _ counts collects
  · rw [if_neg collects]
    have idle := counts.idle (by simpa using collects)
    refine Meets.bind ((passConditions_idles env _ _ idle).mono (fun _ _ idle => idle) fun _ _ idle => idle.counts)
      fun passed _ idle => ?_
    split
    · exact Meets.pure idle.counts
    split
    · exact runStatement_counts confined counting _ idle
    · exact Meets.pure idle.counts

theorem execLine_counts (env : Env σ) (depth : Nat) : Counting (execLine env depth) := by
  induction depth with
  | zero =>
      intro text slack session counts
      exact Meets.throw (counts.mono (Nat.le_add_right _ _))
  | succ depth ih =>
      intro text slack session counts
      refine Meets.bind (Run.Counts.framed (fun _ => Respects.ofMalformed _) counts) fun texts _ counts => ?_
      exact Meets.forM counts fun text _ counts => statement_counts (execLine_confined env depth) ih text counts

/-- A line of the session itself as far as its own failure, before anybody is told of it. -/
def announced (env : Env σ) (depth : Nat) (line : Text) : Run σ Unit := do
  Run.modifyFrame ({ · with statement := line })
  emit env "before_line" [line]
  execLine env depth line

/-- How much a program puts the counter back. -/
def lag (program : Run σ α) (session : Session σ) : Nat :=
  match program session with
  | .ok _ _ => 0
  | .error exit _ => exit.lag

theorem runLine_lags (env : Env σ) (depth : Nat) (line : Text) (counts : session.frame.Counts slack) :
    Meets (fun _ after => after.frame.Counts (slack + lag (announced env depth line) session))
      (fun _ after => after.frame.Counts (slack + lag (announced env depth line) session))
      (runLine env (execLine env depth) line) session := by
  let stated : Session σ := { session with frame := { session.frame with statement := line } }
  have lags : lag (announced env depth line) session =
      lag (do emit env "before_line" [line]; execLine env depth line) stated := rfl
  have counts : stated.frame.Counts slack := ⟨counts.below, counts.counted⟩
  rw [lags]
  refine Meets.change_bind (Meets.bind ((emit_counts env _ _ counts).ran.mono (fun _ _ told => told) ?_) ?_)
  · rintro exit after ⟨counts, failed⟩
    have same : lag (do emit env "before_line" [line]; execLine env depth line) stated = exit.lag := by
      simp only [lag, bind, EStateM.bind, failed]
    exact same ▸ counts
  rintro _ told ⟨counts, announced⟩
  have same : lag (do emit env "before_line" [line]; execLine env depth line) stated =
      lag (execLine env depth line) told := by
    simp only [lag, bind, EStateM.bind, announced]
  rw [same]
  have emits (event : Text) (args : List Text) {reached : Session σ} {slack : Nat}
      (counts : reached.frame.Counts slack) :=
    Meets.framed (fun reference => emit_respects (Framed.traceable reference) env event args) counts
  refine Meets.bind (Meets.onError ((execLine_counts env depth line slack told counts).ran.mono
    (fun _ _ ended => ended.1.mono (Nat.le_add_right _ _)) fun exit after failed => ?_)
    (fun error reached counts => Meets.read (Meets.bind (emits _ _ counts) fun _ _ counts => Meets.throw counts))
    fun _ _ counts _ => counts) fun _ _ counts => emits _ _ counts
  have same : lag (execLine env depth line) told = exit.lag := by simp only [lag, failed.2]
  exact same ▸ failed.1

/-- Whether a line of the session itself is refused as the end of a loop in which a chain is still open. -/
def refusal (env : Env σ) (depth : Nat) (line : Text) (session : Session σ) : Nat :=
  if session.stopped then 0
  else lag (Run.deeper 8 (announced env depth line))
    (session.modifyRoot fun root => { root with line := root.line + 1 })

theorem lag_deeper {calls : Nat} (program : Run σ α) (allowed : ¬callLimit < session.depth + calls) :
    lag (Run.deeper calls program) session = lag program { session with depth := session.depth + calls } := by
  have unfolded : Run.deeper calls program session =
      Run.always program (modify ({ · with depth := session.depth }))
        { session with depth := session.depth + calls } := by
    simp only [Run.deeper, bind, EStateM.bind, EStateM.get_apply, allowed, ↓reduceIte]
    rfl
  unfold lag
  rw [unfolded]
  simp only [Run.always, bind, EStateM.bind, Run.attempt]
  cases program { session with depth := session.depth + calls } <;> rfl

/-- A line of the session itself keeps the count, but for its own refusal. -/
theorem parseLine_counts (env : Env σ) (depth : Nat) (line : Text) (top : session.callers = [])
    (counts : session.frame.Counts slack) :
    Meets (fun _ after => after.frame.Counts (slack + refusal env depth line session))
      (fun _ after => after.frame.Counts (slack + refusal env depth line session))
        (parseLine env depth line) session := by
  refine Meets.read ?_
  by_cases stopped : session.stopped
  · rw [if_pos stopped]
    exact Meets.pure (counts.mono (Nat.le_add_right _ _))
  rw [if_neg stopped]
  let begun := session.modifyRoot fun root => { root with line := root.line + 1 }
  have refuses : refusal env depth line session = lag (Run.deeper 8 (announced env depth line)) begun := by
    simp only [refusal, stopped, Bool.false_eq_true, ↓reduceIte]
    rfl
  have counts : begun.frame.Counts slack := by
    simp only [begun, Session.modifyRoot, top, List.reverse_nil]
    exact ⟨counts.below, counts.counted⟩
  rw [refuses]
  have runs : Meets (fun _ after => after.frame.Counts (slack + lag (Run.deeper 8 (announced env depth line)) begun))
      (fun _ after => after.frame.Counts (slack + lag (Run.deeper 8 (announced env depth line)) begun))
      (Run.deeper 8 (runLine env (execLine env depth) line)) begun := by
    refine Meets.deeper (fun allowed => ?_) (fun _ _ _ counts => counts) (fun _ _ _ counts => counts)
      (counts.mono (Nat.le_add_right _ _))
    rw [lag_deeper _ allowed]
    exact runLine_lags env depth line counts
  refine Meets.change_bind (Meets.attempt_bind runs (fun _ _ counts => Meets.pure counts) fun exit _ counts => ?_)
  cases exit with
  | stopped code => exact Meets.change_bind (Meets.pure (by rwa [Session.stop_frame]))
  | error error =>
      exact Meets.bind
        (Meets.framed (fun reference => Report.add_respects (Framed.traceable reference) env error) counts)
        fun _ _ counts => Meets.pure counts
  | returned | fault _ | exhausted => exact Meets.throw counts

def refusals (env : Env σ) (depth : Nat) : List Text → Session σ → Nat
  | [], _ => 0
  | line :: rest, session =>
    refusal env depth line session + refusals env depth rest ((parseLine env depth line).leaves session)

def afterLines (env : Env σ) (depth : Nat) (lines : List Text) (session : Session σ) : Session σ :=
  lines.foldl (fun session line => (parseLine env depth line).leaves session) session

theorem parseLine_top (env : Env σ) (depth : Nat) (line : Text) (top : session.callers = []) :
    ((parseLine env depth line).leaves session).callers = [] := by
  have kept := (@parseLine_escapes σ env depth line session.surroundings top session rfl).meets
  have around : ((parseLine env depth line).leaves session).surroundings = session.surroundings := Meets.leaves kept
  rw [← top]
  exact congrArg Surroundings.callers around

theorem afterLines_counts (env : Env σ) (depth : Nat) (lines : List Text) (top : session.callers = [])
    (counts : session.frame.Counts slack) :
    (afterLines env depth lines session).callers = [] ∧
      (afterLines env depth lines session).frame.Counts (slack + refusals env depth lines session) := by
  induction lines generalizing session slack with
  | nil => exact ⟨top, counts⟩
  | cons line rest ih =>
      have followed := ih (parseLine_top env depth line top) (parseLine_counts env depth line top counts).leaves
      rw [Nat.add_assoc] at followed
      exact followed

/-- A loop that is being read can be closed, as long as no line was refused. Whatever lines are given to a session,
malformed and failing ones included: while the innermost loop of the session itself is being read, the counter of open
blocks is what the lines of its body leave open, less one for each of at most as many lines as were refused; if none is
missing, it is at least one. -/
theorem reading_counted (env : Env σ) (depth : Nat) (lines : List Text) (session : Session σ)
    (top : session.callers = []) (idle : session.frame.loops = []) :
    let after := afterLines env depth lines session
    ∀ loop, after.root.loops.head? = some loop → loop.isCollecting →
      ∃ missed ≤ refusals env depth lines session,
        after.root.blocks.loops = loop.openBlocks - missed ∧ (missed = 0 → 1 ≤ after.root.blocks.loops) := by
  intro after loop innermost collects
  have start : session.frame.Counts 0 := Frame.Idle.counts (by simp [Frame.Idle, idle])
  obtain ⟨callers, counts⟩ := afterLines_counts env depth lines top start
  have root : after.root = after.frame := by
    unfold Session.root
    rw [show after.callers = [] from callers]
    rfl
  rw [root] at innermost ⊢
  obtain ⟨missed, few, same, closable⟩ := counts.counted loop innermost collects
  have short : after.frame.blocks.loops + missed = loop.openBlocks := same
  exact ⟨missed, by omega, by omega, closable⟩

/-- The end of the loop is refused, and the loop that is read after it is not counted as a second one any more. -/
theorem refused_end_counted :
    let env : Env Unit := {}
    let session := Session.start {} ()
    let lines : List Text := ["foreach('a, b', i)", "if(1)", "endfor", "foreach('c', j)"]
    let after := afterLines env 3 lines session
    let loop : Loop :=
      { name := "i", source := .list ["a", "b"] 1 "a, b", mode := .reading,
        lines := [⟨"if(1)", 2⟩, ⟨"foreach('c', j)", 4⟩] }
    (session.callers = [] ∧ session.frame.loops = []) ∧ refusals env 3 lines session = 1 ∧
      after.root.loops.head? = some loop ∧ loop.isCollecting ∧ loop.openBlocks = 2 ∧ after.root.blocks.loops = 1 ∧
      ∃ missed ≤ refusals env 3 lines session,
        after.root.blocks.loops = loop.openBlocks - missed ∧ (missed = 0 → 1 ≤ after.root.blocks.loops) := by
  intro env session lines after loop
  have innermost : after.root.loops.head? = some loop := by decide +kernel
  have collects : loop.isCollecting := by decide
  refine ⟨⟨rfl, rfl⟩, by decide +kernel, innermost, collects, by decide +kernel, by decide +kernel, ?_⟩
  exact reading_counted env 3 lines session rfl rfl loop innermost collects

end Interpreter

end CommandScript
