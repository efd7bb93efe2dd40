import CommandScript.Proofs.Blocks.Nesting

/-! A loop whose body is well nested leaves the conditional stack as it found it. Passes over the body run its
lines in the frame of the script, above the stack that was there at the end of the loop; an inner loop is read
again in each pass, and comes to its own end one level of running lines below. -/

namespace CommandScript

variable {σ α : Type}

open Run

/-- Where a loop stands: the aliases of the script and of the loop itself, and the loops around it. -/
structure Site where
  aliases : AliasTable
  own : AliasTable
  outer : List Loop

namespace Site

def tables (site : Site) : List AliasTable := site.aliases :: (site.outer.reverse.map (·.aliases) ++ [site.own])

def reads (site : Site) : Text → Text := Interpreter.rewrite site.tables

end Site

/-- Between two lines of a body that is being replayed, with a number of its own chains open. -/
structure Stands (site : Site) (base : List Branch) (depth : Nat) (frame : Frame) : Prop where
  aliases : frame.aliases = site.aliases
  loops : ∃ loop : Loop, frame.loops = loop :: site.outer ∧ loop.aliases = site.own ∧ loop.isCollecting = false
  chains : Stacked base depth frame.conditions

/-- Within an inner loop that is being read: `body` is what has been read of it, and `blocks` what has been counted. -/
structure Gathers (site : Site) (base : List Branch) (depth : Nat) (body : List BodyLine) (blocks : Flow.BlockCount)
    (frame : Frame) : Prop where
  aliases : frame.aliases = site.aliases
  loops : ∃ loop current : Loop, frame.loops = loop.read body :: current :: site.outer ∧ loop.lines = [] ∧
    loop.aliases = [] ∧ loop.isCollecting ∧ current.aliases = site.own ∧ current.isCollecting = false
  counted : frame.blocks = blocks
  chains : Stacked base depth frame.conditions

/-- The conditional stack is over a base wherever the property holds. -/
def Covers (base : List Branch) (P : Frame → Prop) : Prop := ∀ frame, P frame → base <:+ frame.conditions

variable {site : Site} {base : List Branch} {depth : Nat} {frame : Frame} {session : Session σ} {env : Env σ}
  {exec : Text → Run σ Unit}

theorem Stands.covers : Covers base (Stands site base depth) := fun _ stands => stands.chains.suffix

theorem Gathers.covers {body : List BodyLine} {blocks : Flow.BlockCount} :
    Covers base (Gathers site base depth body blocks) := fun _ gathers => gathers.chains.suffix

theorem Gathers.statement {body : List BodyLine} {blocks : Flow.BlockCount} (line : ScriptLine)
    (gathers : Gathers site base depth body blocks session.frame) :
    Interpreter.statement env exec line.text session =
      (match (session.frame.blocks.track line.text).2 with
        | .error error => Run.fail (.flow error)
        | .ok true => Flow.endLoop env (Interpreter.runLine env exec)
        | .ok false => Run.modifyFrame (·.modifyLoop fun loop =>
            { loop with lines := loop.lines ++ [⟨line.text, session.frame.line⟩] }) : Run σ Unit)
        { session with frame := { session.frame with blocks := (session.frame.blocks.track line.text).1 } } := by
  obtain ⟨loop, current, loops, -, -, collects, -, -⟩ := gathers.loops
  have collecting : session.frame.loops.head?.any Loop.isCollecting = true := by
    rw [loops]
    exact collects
  rw [Structured.statement_reading line exec collecting]
  exact Interpreter.collect_counted exec line.text session

theorem Stands.tables (stands : Stands site base depth frame) : frame.aliasTables = site.tables := by
  obtain ⟨loop, loops, own, _⟩ := stands.loops
  simp only [Frame.aliasTables, Site.tables, stands.aliases, loops, List.reverse_cons, List.map_append, List.map_cons,
    List.map_nil, own]

theorem Stands.open (stands : Stands site base depth frame) : frame.loops.head?.any Loop.isCollecting = false := by
  obtain ⟨loop, loops, _, replaying⟩ := stands.loops
  simp [loops, replaying]

theorem Stands.rebase (stands : Stands site base depth frame) : Stands site frame.conditions 0 frame :=
  ⟨stands.aliases, stands.loops, .bottom _⟩

theorem Stands.resume {after : Frame} (stands : Stands site base depth frame)
    (inner : Stands site frame.conditions 0 after) : Stands site base depth after :=
  ⟨inner.aliases, inner.loops, inner.chains.eq_base ▸ stands.chains⟩

def Overlays (base : List Branch) (_ : Exit) (session : Session σ) : Prop := base <:+ session.frame.conditions

abbrev Run.Leads (base : List Branch) (P : Frame → Prop) (program : Run σ α) (session : Session σ) : Prop :=
  Meets (fun _ after => P after.frame) (Overlays base) program session

theorem Run.Leads.framed {P : Frame → Prop} {program : Run σ α}
    (respects : ∀ reference, Respects (Framed reference) program)
    (covers : Covers base P) (holds : P session.frame) : Run.Leads base P program session :=
  (Meets.framed respects holds).mono (fun _ _ holds => holds) fun _ _ holds => covers _ holds

namespace Interpreter

theorem runCommand_stands (confined : ∀ around text, Confined around (Exit.leavesLine around) (exec text))
    {line : Text} {command : Command} (known : commandOf? line = some command) (steady : isSteady line)
    (stands : Stands site base depth session.frame) :
    Run.Leads base (Stands site base depth)
      (runCommand env exec command (Text.trim (Text.cutOrAll ' ' line).2)) session := by
  have above := stands.chains.suffix
  -- a command that runs no lines cannot tell the frame apart from others, and so keeps it
  cases plain : command.isPlain with
  | true =>
      exact Run.Leads.framed (fun reference =>
        runCommand_respects (Framed.traceable reference).toCommandable env exec plain _) Stands.covers stands
  | false =>
      cases command with
      | addAlias | removeAlias | parseString => simp [isSteady, known] at steady
      | parse =>
          refine Meets.read ?_
          dsimp only
          cases found : ScriptTarget.read session.store.get? (Text.trim (Text.cutOrAll ' ' line).2) with
          | error failure => cases failure <;> exact Meets.throw above
          | ok target =>
              have blockless : target.block = none := by
                rw [ScriptTarget.read_block found, Text.trim_trim]
                simpa only [isSteady, known, Option.isNone_iff_eq_none] using steady
              obtain ⟨path, block⟩ := target
              subst blockless
              change Meets _ _ (parseFile env exec ⟨path, none⟩) session
              refine (parseFile_unmoved env confined path session (.refl session)).meets.mono
                (fun _ after unmoved => ?_) fun _ after unmoved => ?_
              · rw [unmoved.frame]
                exact stands
              · unfold Overlays
                rw [unmoved.frame]
                exact above
      | leaveFile => exact Run.Leads.framed Framed.runLeaveFile Stands.covers stands
      | quit => exact Run.Leads.framed (Framed.runQuit env _) Stands.covers stands
      | relativePaths =>
          unfold runCommand Command.runRelativePaths
          dsimp only
          split
          · exact Meets.change ⟨stands.aliases, stands.loops, stands.chains⟩
          · exact Meets.throw above
      | leaveLoop =>
          refine Meets.read (Meets.check above (Meets.change ⟨stands.aliases, ?_, stands.chains⟩))
          obtain ⟨loop, loops, own, _⟩ := stands.loops
          exact ⟨{ loop with mode := .leaving }, by simp only [Frame.modifyLoop, loops, List.modifyHead_cons], own, rfl⟩
      | print | printf | sprint | sprintf | printOpen | printClose | writeOpen | writeClose | set | setLogical |
        unset | publish | system | wait => cases plain

theorem runStatement_stands (confined : ∀ around text, Confined around (Exit.leavesLine around) (exec text))
    {line : Text} (role : Flow.role? line = some .action) (steady : isSteady line)
    (stands : Stands site base depth session.frame) :
    Run.Leads base (Stands site base depth) (runStatement env exec line) session := by
  cases plain : isPlain line with
  | true =>
      exact Run.Leads.framed (fun reference =>
        runStatement_respects (Framed.traceable reference).toCommandable env exec plain) Stands.covers stands
  | false =>
      obtain ⟨_, _, notForeach, notEndfor⟩ := Flow.describes_of_role role
      simp only [isPlain, notForeach, notEndfor, Bool.not_false, Bool.true_and, Bool.or_eq_false_iff,
        decide_eq_false_iff_not] at plain
      obtain ⟨notShell, other⟩ := plain
      cases found : Command.of? (Text.cutOrAll ' ' line).1 with
      | none =>
          rw [found] at other
          cases other
      | some command =>
          have known : commandOf? line = some command := by rw [commandOf?, if_neg notShell, found]
          unfold runStatement
          simp only [notForeach, notEndfor, notShell, found, Bool.false_eq_true, ↓reduceIte]
          exact runCommand_stands confined known steady stands

theorem statement_leads (line : ScriptLine) {role : Flow.Role} {P : Frame → Prop}
    (known : Flow.role? (site.reads line.text) = some role) (stands : Stands site base depth session.frame)
    (covers : Covers base P)
    (moves : ∀ conditions, role.Shifts session.frame.conditions conditions → P { session.frame with conditions })
    (runs : role.isOutside → ∀ reached : Session σ, reached.frame = session.frame →
      Run.Leads base P (runStatement env exec (site.reads line.text)) reached) :
    Run.Leads base P (statement env exec line.text) session := by
  rw [Structured.statement_line]
  refine Meets.read ?_
  dsimp only
  have read : (if keepsAliases line.text then line.text else AliasTable.apply session.frame.aliasTables line.text) =
      site.reads line.text := by rw [stands.tables]; rfl
  rw [if_neg (by simp [stands.open]), read]
  refine Meets.bind ((passConditions_shifts env known _).mono (fun _ _ ended => ended) fun _ after failed => ?_)
    fun passed after ended => ?_
  · obtain ⟨conditions, same | shifted, frame⟩ := failed
    · unfold Overlays
      rw [frame, same]
      exact stands.chains.suffix
    · have moved := covers _ (moves conditions shifted)
      unfold Overlays
      rw [frame]
      exact moved
  · obtain ⟨rfl, conditions, shifted, frame⟩ | ⟨rfl, outside, frame⟩ := ended
    · refine Meets.pure ?_
      rw [frame]
      exact moves conditions shifted
    · have still : P session.frame := moves session.frame.conditions (role.shifts_of_outside outside _)
      rw [if_neg Bool.false_ne_true]
      split
      · exact runs outside after frame
      · refine Meets.pure ?_
        rw [frame]
        exact still

theorem statement_bare (line : ScriptLine) {P : Frame → Prop} (bare : Flow.IsBare (site.reads line.text))
    (stands : Stands site base depth session.frame) : Run.Leads base P (statement env exec line.text) session := by
  rw [Structured.statement_line]
  refine Meets.read ?_
  have fails : Run.Leads base (fun _ => False)
      (passConditions env (session.frame.loops.head?.any (·.mode = .leaving)) (site.reads line.text)) session := by
    refine Meets.read ?_
    simp only [Flow.judge_bare bare]
    exact Meets.throw stands.chains.suffix
  simp only [stands.open, stands.tables, Bool.false_eq_true, ↓reduceIte]
  exact Meets.bind fails fun _ _ never => never.elim

end Interpreter

namespace Structured

theorem flatLine_leads {P Q : Frame → Prop} (line : ScriptLine) (starts : Covers base P) (ends : Covers base Q)
    (stable : ∀ (frame : Frame) number statement, P frame → P { frame with line := number, statement })
    (acts : ∀ below, depth = below + 1 → ∀ reached : Session σ, P reached.frame → reached.frame.line = line.number →
      Run.Leads base Q (Interpreter.statement env (Interpreter.execLine env below) line.text) reached)
    (holds : P session.frame) : Run.Leads base Q (flatLine env depth line.toBodyLine) session := by
  have emits (event : Text) (args : List Text) {R : Frame → Prop} (covers : Covers base R) {session : Session σ}
      (holds : R session.frame) : Run.Leads base R (Interpreter.emit env event args) session :=
    Run.Leads.framed (fun reference => Interpreter.emit_respects (Framed.traceable reference) env event args)
      covers holds
  let There (frame : Frame) : Prop := P frame ∧ frame.line = line.number
  have there : Covers base There := fun frame holds => starts frame holds.1
  refine Meets.change_bind (Meets.change_bind ?_)
  refine Meets.bind (emits "before_line" [line.text] there ⟨stable session.frame line.number line.text holds, rfl⟩)
    fun _ reached started => ?_
  have runs : Run.Leads base Q (Interpreter.execLine env depth line.text) reached := by
    cases depth with
    | zero => exact Meets.throw (there _ started)
    | succ below =>
        rw [execLine_single]
        exact acts below rfl reached started.1 started.2
  refine Meets.bind (Meets.onError runs (fun error failed above => Meets.read ?_) fun _ _ above _ => above)
    fun _ _ ended => emits "after_line" [line.text] ends ended
  exact Meets.bind (emits "on_error" _ (fun _ holds => holds) above) fun _ _ above => Meets.throw above

theorem flatLine_moves (line : ScriptLine) {role : Flow.Role} {P : Frame → Prop}
    (known : Flow.role? (site.reads line.text) = some role) {opened : Nat}
    (stands : Stands site base opened session.frame)
    (covers : Covers base P)
    (moves : ∀ frame conditions, Stands site base opened frame → role.Shifts frame.conditions conditions →
      P { frame with conditions })
    (runs : role.isOutside → ∀ below, depth = below + 1 → ∀ reached : Session σ, Stands site base opened reached.frame →
      Run.Leads base P (Interpreter.runStatement env (Interpreter.execLine env below) (site.reads line.text)) reached) :
    Run.Leads base P (flatLine env depth line.toBodyLine) session := by
  refine flatLine_leads line Stands.covers covers (fun _ _ _ stands => ⟨stands.aliases, stands.loops, stands.chains⟩)
    (fun below deeper reached stands _ => ?_) stands
  exact Interpreter.statement_leads line known stands covers (fun conditions => moves _ conditions stands)
    fun outside after same => runs outside below deeper after (same ▸ stands)

theorem chainLine_leads (line : ScriptLine) {role : Flow.Role} (known : Flow.role? (site.reads line.text) = some role)
    (inside : role.isOutside = false) {opened later : Nat}
    (chains : ∀ {before after}, Stacked base opened before → role.Shifts before after → Stacked base later after)
    (stands : Stands site base opened session.frame) :
    Run.Leads base (Stands site base later) (flatLine env depth line.toBodyLine) session := by
  refine flatLine_moves line known stands Stands.covers (fun frame conditions stands shifted => ?_) fun outside => ?_
  · exact ⟨stands.aliases, stands.loops, chains stands.chains shifted⟩
  · rw [inside] at outside
    cases outside

theorem Tracks.gathers {opened : Nat} {blocks after : Flow.BlockCount} {body lines : List BodyLine}
    (tracks : Tracks blocks lines after) (gathers : Gathers site base opened body blocks session.frame) :
    Run.Leads base (Gathers site base opened (body ++ lines) after) (flat env depth lines) session := by
  induction tracks generalizing body session with
  | nil =>
      rw [List.append_nil]
      exact Meets.pure gathers
  | @cons before counted last line rest tracked _ ih =>
      rw [flat_cons]
      have takes : Run.Leads base (Gathers site base opened (body ++ [line.toBodyLine]) counted)
          (flatLine env depth line.toBodyLine) session := by
        refine flatLine_leads line Gathers.covers Gathers.covers
          (fun _ _ _ gathers => ⟨gathers.aliases, gathers.loops, gathers.counted, gathers.chains⟩)
          (fun below _ reached gathers atLine => ?_) gathers
        obtain ⟨loop, current, loops, empty, unaliased, collects, own, replaying⟩ := gathers.loops
        refine Meets.of_eq (gathers.statement line) ?_
        rw [gathers.counted, tracked, atLine]
        refine Meets.change ⟨gathers.aliases, ⟨loop, current, ?_, empty, unaliased, collects, own, replaying⟩, rfl,
          gathers.chains⟩
        simp only [Frame.modifyLoop, loops, List.modifyHead_cons, ← Loop.read_read]
        rfl
      refine Meets.bind takes fun _ _ gathers => ?_
      have whole := ih gathers
      rwa [List.append_assoc] at whole

end Structured

/-- The innermost loop is gone, and everything else is as it was. -/
structure Flow.Ended (before after : Frame) : Prop where
  aliases : after.aliases = before.aliases
  loops : after.loops = before.loops.drop 1
  conditions : after.conditions = before.conditions

/-- The end of a loop whose body is well nested gives back the conditional stack, and takes the loop from the
stack. If it fails, there may be more on the conditional stack than there was. -/
def Flow.KeepsChains (env : Env σ) (depth : Nat) : Prop :=
  ∀ (session : Session σ) (loop : Loop) (outer : List Loop), session.frame.loops = loop :: outer →
    Nested (Interpreter.rewrite session.frame.aliasTables) 0 loop.lines →
    Run.Leads session.frame.conditions (Ended session.frame)
      (endLoop env (Interpreter.runLine env (Interpreter.execLine env depth))) session

namespace Structured

theorem header_leads (header : ScriptLine) {opened : Nat}
    (known : Flow.role? (site.reads header.text) = some .header) (stands : Stands site base opened session.frame) :
    Run.Leads base (fun after => Stands site base opened after ∨ Gathers site base opened [] ⟨1, 0⟩ after)
      (flatLine env depth header.toBodyLine) session := by
  have covers : Covers base (fun after => Stands site base opened after ∨ Gathers site base opened [] ⟨1, 0⟩ after) :=
    fun frame either => either.elim (Stands.covers frame) (Gathers.covers frame)
  refine flatLine_moves header known stands covers (fun frame conditions stands same => ?_)
    fun _ below _ reached stands => ?_
  · have unmoved : conditions = frame.conditions := same
    subst unmoved
    exact .inl stands
  · obtain ⟨_, _, opens⟩ := Flow.describes_of_role known
    unfold Interpreter.runStatement
    rw [if_pos opens]
    have parses : Run.Leads base (Stands site base opened)
        (Run.ofCause (LoopHeader.parse (site.reads header.text))) reached :=
      Run.Leads.framed (fun _ => Respects.ofCause _) Stands.covers stands
    refine Meets.bind parses fun loopHeader after stands => Meets.change_bind ?_
    let Begun (frame : Frame) : Prop := Stands site base opened frame ∧ frame.blocks = ⟨1, 0⟩
    have begun : Begun { after.frame with blocks := ⟨1, 0⟩ } := ⟨⟨stands.aliases, stands.loops, stands.chains⟩, rfl⟩
    have opens : Run.Leads base Begun (Flow.openLoop env loopHeader)
        { after with frame := { after.frame with blocks := ⟨1, 0⟩ } } :=
      Run.Leads.framed (fun reference => Flow.openLoop_respects (Framed.notable reference) env loopHeader)
        (fun frame begun => Stands.covers frame begun.1) begun
    refine Meets.bind (opens.yielding (openLoop_fresh env loopHeader)) fun loop last ended => ?_
    obtain ⟨⟨stands, counted⟩, fresh⟩ := ended
    obtain ⟨current, loops, own, replaying⟩ := stands.loops
    refine Meets.change (.inr ⟨stands.aliases, ⟨loop, current, ?_, fresh.lines, fresh.unaliased, fresh.collects, own,
      replaying⟩, counted, stands.chains⟩)
    rw [Loop.read_nil]
    exact congrArg (loop :: ·) loops

theorem loopEnd_stands (close : ScriptLine) {opened : Nat}
    (known : Flow.role? (site.reads close.text) = some .loopEnd) (stands : Stands site base opened session.frame) :
    Run.Leads base (Stands site base opened) (flatLine env depth close.toBodyLine) session := by
  refine flatLine_moves close known stands Stands.covers (fun frame conditions stands same => ?_)
    fun _ below _ reached stands => ?_
  · have unmoved : conditions = frame.conditions := same
    subst unmoved
    exact stands
  · obtain ⟨_, _, notForeach, ends⟩ := Flow.describes_of_role known
    unfold Interpreter.runStatement
    rw [if_neg (by simp [notForeach]), if_pos ends]
    exact Meets.throw (Stands.covers _ stands)

theorem loopEnd_gathers (close : ScriptLine) {opened : Nat} {body : List BodyLine}
    (keeps : ∀ below, depth = below + 1 → Flow.KeepsChains env below) (nested : Nested site.reads 0 body)
    (known : Flow.role? close.text = some .loopEnd) (gathers : Gathers site base opened body ⟨1, 0⟩ session.frame) :
    Run.Leads base (Stands site base opened) (flatLine env depth close.toBodyLine) session := by
  refine flatLine_leads close Gathers.covers Stands.covers
    (fun _ _ _ gathers => ⟨gathers.aliases, gathers.loops, gathers.counted, gathers.chains⟩)
    (fun below deeper reached gathers _ => ?_) gathers
  obtain ⟨loop, current, loops, empty, unaliased, collects, own, replaying⟩ := gathers.loops
  refine Meets.of_eq (gathers.statement close) ?_
  rw [gathers.counted, Flow.track_loopEnd known]
  have tables : reached.frame.aliasTables = site.tables ++ [[]] := by
    have none : (loop.read body).aliases = [] := unaliased
    simp only [Frame.aliasTables, Site.tables, gathers.aliases, loops, List.reverse_cons, List.map_append,
      List.map_cons,
      List.map_nil, own, none, List.cons_append]
  have whole : (loop.read body).lines = body := by simp [Loop.read, empty]
  have ends := keeps below deeper { reached with frame := { reached.frame with blocks := ⟨0, 0⟩ } } (loop.read body)
    (current :: site.outer) loops (by
      rw [whole]
      change Nested (Interpreter.rewrite reached.frame.aliasTables) 0 body
      rw [tables, Interpreter.rewrite_unaliased]
      exact nested)
  refine ends.mono (fun _ after ended => ?_) fun _ after above => gathers.chains.suffix.trans above
  refine ⟨ended.aliases.trans gathers.aliases, ⟨current, ?_, own, replaying⟩, ?_⟩
  · rw [ended.loops, loops]
    rfl
  · rw [ended.conditions]
    exact gathers.chains

end Structured

open Structured

/-- The lines of a body that is well nested close what they open, wherever the conditional stack stands. -/
theorem Nested.leads (keeps : ∀ below, depth = below + 1 → Flow.KeepsChains env below) {opened : Nat}
    {lines : List BodyLine} (nested : Nested site.reads opened lines) (stands : Stands site base opened session.frame) :
    Run.Leads base (Stands site base 0) (flat env depth lines) session := by
  -- on how the body is nested; the base grows where an inner loop is passed over with this one
  induction nested generalizing base session with
  | done => exact Meets.pure stands
  | @command line opened rest plays steady _ ih =>
      have stays : Run.Leads base (Stands site base opened) (flatLine env depth line.toBodyLine) session := by
        refine flatLine_moves line plays.2 stands Stands.covers (fun frame conditions stands same => ?_)
          fun _ below _ reached stands => ?_
        · have unmoved : conditions = frame.conditions := same
          subst unmoved
          exact stands
        · exact Interpreter.runStatement_stands (Interpreter.execLine_confined env below) plays.2 steady stands
      exact Meets.bind stays fun _ _ stands => ih stands
  | @bare line opened rest _ bare _ ih =>
      have fails : Run.Leads base (Stands site base opened) (flatLine env depth line.toBodyLine) session := by
        refine flatLine_leads line Stands.covers Stands.covers
          (fun _ _ _ stands => ⟨stands.aliases, stands.loops, stands.chains⟩)
            (fun below _ reached stands _ => ?_) stands
        exact Interpreter.statement_bare line bare stands
      exact Meets.bind fails fun _ _ stands => ih stands
  | @opens line opened rest plays _ ih =>
      refine Meets.bind (chainLine_leads line plays.2 rfl (fun stacked shifted => ?_) stands) fun _ _ stands =>
        ih stands
      obtain ⟨branch, rfl⟩ := shifted
      exact stacked.push branch
  | @elseIf line opened rest plays _ ih =>
      refine Meets.bind (chainLine_leads line plays.2 rfl (fun stacked shifted => ?_) stands) fun _ _ stands =>
        ih stands
      obtain ⟨_, branch, rfl⟩ := shifted
      exact stacked.turn branch
  | @otherwise line opened rest plays _ ih =>
      refine Meets.bind (chainLine_leads line plays.2 rfl (fun stacked shifted => ?_) stands) fun _ _ stands =>
        ih stands
      obtain ⟨_, branch, rfl⟩ := shifted
      exact stacked.turn branch
  | @closes line opened rest plays _ ih =>
      refine Meets.bind (chainLine_leads line plays.2 rfl (fun stacked shifted => ?_) stands) fun _ _ stands =>
        ih stands
      obtain ⟨_, rfl⟩ := shifted
      exact stacked.drop
  | @loop header close opened inner rest opens innerNested ends _ innerLeads restLeads =>
      rw [flat_cons, flat_append, flat_cons]
      refine Meets.bind (header_leads header opens.2 stands) fun _ reached either => ?_
      obtain stands | gathers := either
      · -- the header was passed over, and so the body is one of this loop's own
        have inside := (innerLeads stands.rebase).mono (fun _ _ back => stands.resume back)
          fun _ _ above => stands.chains.suffix.trans above
        refine Meets.bind inside fun _ _ stands => Meets.bind (loopEnd_stands close ends.2 stands) fun _ _ stands => ?_
        exact restLeads stands
      · have accepted : Tracks ⟨1, 0⟩ inner ⟨1, 0⟩ := @Nested.tracks _ _ _ innerNested 1 0 Int.one_pos
        refine Meets.bind (accepted.gathers gathers) fun _ _ gathers => ?_
        refine Meets.bind (loopEnd_gathers close keeps innerNested ends.1 gathers) fun _ _ stands => ?_
        exact restLeads stands

namespace Flow

def passes (env : Env σ) (runLine : Text → Run σ Unit) (loop : Loop) (depth conditions : Nat) : Run σ Answer :=
  if loop.mode = .reading then do
    Run.modifyFrame (·.modifyLoop ({ · with mode := .replaying }))
    Run.deeper 5 (replay env runLine depth conditions loop.lines (budget env loop) 1)
  else pure .noMore

/-- Script errors come with the conditional stack as it was; other exits may leave chains open. -/
def Breaks (base : List Branch) : Exit → Session σ → Prop
  | .error _, session => session.frame.conditions = base
  | _, session => base <:+ session.frame.conditions

theorem Breaks.overlays {exit : Exit} (breaks : Breaks base exit session) : Overlays base exit session := by
  cases exit with
  | error problem => exact (show session.frame.conditions = base from breaks) ▸ List.suffix_refl _
  | _ => exact breaks

theorem Breaks.settled (same : session.frame.conditions = base) (exit : Exit) : Breaks base exit session := by
  cases exit with
  | error problem => exact same
  | _ => exact same ▸ List.suffix_refl _

theorem Breaks.framed {P : Frame → Prop} {program : Run σ α}
    (respects : ∀ reference, Respects (Framed reference) program)
    (closed : ∀ frame, P frame → frame.conditions = base) (holds : P session.frame) :
    Meets (fun _ after => P after.frame) (Breaks base) program session :=
  (Meets.framed respects holds).mono (fun _ _ holds => holds) fun exit _ holds => .settled (closed _ holds) exit

theorem replayLines_balanced (keeps : ∀ below, depth = below + 1 → KeepsChains env below) {lines : List BodyLine}
    (nested : Nested site.reads 0 lines) (stands : Stands site base 0 session.frame) :
    Meets (fun _ after => Stands site base 0 after.frame) (Breaks base)
      (replayLines env (Interpreter.runLine env (Interpreter.execLine env depth)) base.length lines) session := by
  rw [replayLines_eq]
  refine Meets.onError (nested.leads keeps stands) (fun error reached above => ?_) fun exit reached above other => ?_
  · refine Meets.change_bind ?_
    let Cut (frame : Frame) : Prop := frame.conditions = base
    have cut : Cut (reached.frame.trimConditions base.length) := by
      simp only [Cut, Frame.trimConditions_suffix above]
    have reports : Meets (fun _ after => Cut after.frame) (Breaks base) (Report.add env error)
        { reached with frame := reached.frame.trimConditions base.length } :=
      Breaks.framed (fun reference => Report.add_respects (Framed.traceable reference) env error)
        (fun _ same => same) cut
    exact Meets.bind reports fun _ _ same => Meets.throw (.settled same _)
  · cases exit with
    | error problem => exact absurd rfl (other problem)
    | _ => exact above

theorem advance_balanced (env : Env σ) (stands : Stands site base 0 session.frame) :
    Meets (fun _ after => Stands site base 0 after.frame) (Breaks base) (advance env site.outer.length) session := by
  obtain ⟨loop, loops, own, replaying⟩ := stands.loops
  have closed (frame : Frame) (stands : Stands site base 0 frame) : frame.conditions = base := stands.chains.eq_base
  have puts (name value : Text) {session : Session σ} (stands : Stands site base 0 session.frame) :
      Meets (fun _ after => Stands site base 0 after.frame) (Breaks base) (Run.put name value : Run σ Unit) session :=
    Breaks.framed (fun reference => Respects.put (Framed.traceable reference).toCommandable name value) closed stands
  have steps (source : LoopSource) {session : Session σ} (stands : Stands site base 0 session.frame) :
      Stands site base 0 (session.frame.modifyLoopAt site.outer.length fun loop => { loop with source }) := by
    obtain ⟨loop, loops, own, replaying⟩ := stands.loops
    rw [Frame.modifyLoopAt_innermost loops]
    exact ⟨stands.aliases, ⟨_, rfl, own, replaying⟩, stands.chains⟩
  refine Meets.read ?_
  rw [Frame.loopAt?_innermost loops]
  dsimp only
  split
  · split
    · exact Meets.pure stands
    · exact Meets.bind (puts _ _ stands) fun _ _ stands => Meets.change_bind (Meets.pure (steps _ stands))
  · refine Meets.change_bind ?_
    split
    · exact Meets.pure (steps _ stands)
    · exact Meets.bind (puts _ _ (steps _ stands)) fun _ _ stands => Meets.pure stands
  · exact Breaks.framed (fun reference => askSource_respects (Framed.traceable reference).toCommandable env _ _ _ _)
      closed stands

theorem replay_balanced (keeps : ∀ below, depth = below + 1 → KeepsChains env below) {lines : List BodyLine}
    (nested : Nested site.reads 0 lines) (passes pass : Nat) (stands : Stands site base 0 session.frame) :
    Meets (fun _ after => Stands site base 0 after.frame) (Breaks base)
      (replay env (Interpreter.runLine env (Interpreter.execLine env depth)) site.outer.length base.length lines
        passes pass) session := by
  induction passes generalizing session pass with
  | zero => exact Meets.throw stands.chains.suffix
  | succ passes ih =>
      have numbers := Breaks.framed (fun reference => Respects.put (Framed.traceable reference).toCommandable
        "for_index" (Text.ofNat pass)) (fun _ (stands : Stands site base 0 _) => stands.chains.eq_base) stands
      refine Meets.bind numbers fun _ _ stands => Meets.bind (replayLines_balanced keeps nested stands)
        fun _ reached stands => Meets.read ?_
      split
      · exact Meets.pure stands
      · refine Meets.bind (advance_balanced env stands) fun answer _ stands => ?_
        split
        · exact ih (pass + 1) stands
        · exact Meets.pure stands

/-- The loop is still the innermost one, and everything else is as it was. -/
structure Level (before after : Frame) : Prop where
  aliases : after.aliases = before.aliases
  outer : after.loops.drop 1 = before.loops.drop 1
  conditions : after.conditions = before.conditions

theorem passes_balanced (keeps : ∀ below, depth = below + 1 → KeepsChains env below) {loop : Loop} {outer : List Loop}
    (loops : session.frame.loops = loop :: outer)
    (nested : Nested (Interpreter.rewrite session.frame.aliasTables) 0 loop.lines) :
    Meets (fun _ after => Level session.frame after.frame) (Breaks session.frame.conditions)
      (passes env (Interpreter.runLine env (Interpreter.execLine env depth)) loop outer.length
        session.frame.conditions.length) session := by
  unfold passes
  split
  · let site : Site := ⟨session.frame.aliases, loop.aliases, outer⟩
    have stands : Stands site session.frame.conditions 0
        (session.frame.modifyLoop fun loop => { loop with mode := .replaying }) := by
      refine ⟨rfl, ⟨{ loop with mode := .replaying }, ?_, rfl, rfl⟩, .bottom _⟩
      simp only [Frame.modifyLoop, loops, List.modifyHead_cons, site]
    have reads : Nested site.reads 0 loop.lines := by
      have tables : session.frame.aliasTables = site.tables := by
        simp only [Frame.aliasTables, Site.tables, loops, List.reverse_cons, List.map_append, List.map_cons,
          List.map_nil,
          site]
      rw [Site.reads, ← tables]
      exact nested
    refine Meets.change_bind (Meets.deeper (fun _ => ?_) (fun _ _ _ level => level) (fun exit _ _ breaks => ?_) ?_)
    · refine (replay_balanced keeps reads _ _ stands).mono (fun _ after stands => ?_) fun _ _ breaks => breaks
      obtain ⟨current, innermost, _, _⟩ := stands.loops
      exact ⟨stands.aliases, by rw [innermost, loops]; rfl, stands.chains.eq_base⟩
    · cases exit <;> exact breaks
    · exact List.suffix_refl _
  · exact Meets.pure ⟨rfl, rfl, rfl⟩

theorem finishLoop_drops (env : Env σ) (level resume : Nat) (session : Session σ) :
    Meets (fun _ after => after.frame = { session.frame with line := resume, loops := session.frame.loops.drop 1 })
      (fun _ after => after.frame = { session.frame with line := resume, loops := session.frame.loops.drop 1 })
      (finishLoop env level resume) session := by
  refine Meets.read ?_
  cases session.frame.loopAt? level with
  | none => exact Meets.change rfl
  | some loop =>
      refine Meets.change_bind (Meets.change_bind ?_)
      rw [Session.noteEnd_frame]
      exact (Meets.sameFrame (fun reference => closeLoop_respects (Framed.notable reference) env loop) _).mono
        (fun _ _ same => same) fun _ _ same => same

theorem endLoop_meets {runLine : Text → Run σ Unit} {loop : Loop} {outer : List Loop} {Then : Answer → Session σ → Prop}
    {Left : Exit → Session σ → Prop} {P Q : Frame → Prop} (loops : session.frame.loops = loop :: outer)
    (passed : Meets Then Left (passes env runLine loop outer.length session.frame.conditions.length) session)
    (ended : ∀ answer (reached : Session σ), Then answer reached →
      P { reached.frame with line := session.frame.line, loops := reached.frame.loops.drop 1 })
    (left : ∀ exit (reached : Session σ), Left exit reached →
      Q { reached.frame with line := session.frame.line, loops := reached.frame.loops.drop 1 })
    (weaker : ∀ frame, P frame → Q frame) :
    Meets (fun _ after => P after.frame) (fun _ after => Q after.frame) (endLoop env runLine) session := by
  refine Meets.read ?_
  dsimp only
  rw [loops]
  have finishes : Meets (fun _ after => P after.frame) (fun _ after => Q after.frame)
      (Run.always (passes env runLine loop outer.length session.frame.conditions.length)
        (finishLoop env outer.length session.frame.line)) session := by
    refine Meets.always passed (fun answer reached holds => ?_) fun exit reached holds => ?_
    · refine (finishLoop_drops env _ _ reached).mono (fun _ _ dropped => ?_) fun _ _ dropped => ?_
      · exact dropped ▸ ended answer reached holds
      · exact dropped ▸ weaker _ (ended answer reached holds)
    · refine (finishLoop_drops env _ _ reached).mono (fun _ _ dropped => ?_) fun _ _ dropped => ?_ <;>
        exact dropped ▸ left exit reached holds
  refine Meets.bind finishes fun answer after holds => Meets.check (weaker _ holds) ?_
  split
  · exact Meets.throw (weaker _ holds)
  · exact Meets.pure holds

theorem keepsChains (env : Env σ) (depth : Nat) : KeepsChains env depth := by
  have step {depth : Nat} (keeps : ∀ below, depth = below + 1 → KeepsChains env below) : KeepsChains env depth := by
    intro session loop outer loops nested
    let Over (frame : Frame) : Prop := session.frame.conditions <:+ frame.conditions
    have ends : Meets (fun _ after => Ended session.frame after.frame) (fun _ after => Over after.frame)
        (endLoop env (Interpreter.runLine env (Interpreter.execLine env depth))) session := by
      refine endLoop_meets loops (passes_balanced keeps loops nested) (fun _ reached level => ?_)
        (fun _ reached breaks => ?_) fun frame ended => ?_
      · exact ⟨level.aliases, level.outer, level.conditions⟩
      · exact breaks.overlays
      · exact ⟨[], ended.conditions.symm⟩
    exact ends
  induction depth with
  | zero => exact step nofun
  | succ depth ih =>
      refine step fun below deeper => ?_
      cases deeper
      exact ih

/-- A loop whose body is well nested leaves the conditional stack as it found it, whatever the stack is and however many
passes there are: when the elements are exhausted or the loop is left, and when a line of the body or the source fails.
Only if the script or the session is left from within the body may chains of the body stay on the stack, above what was
there. -/
theorem endLoop_balanced (env : Env σ) (depth : Nat) {loop : Loop} {outer : List Loop}
    (loops : session.frame.loops = loop :: outer)
    (nested : Nested (Interpreter.rewrite session.frame.aliasTables) 0 loop.lines) :
    match passes env (Interpreter.runLine env (Interpreter.execLine env depth)) loop outer.length
        session.frame.conditions.length session with
    | .ok _ _ | .error (.error _) _ =>
      ((endLoop env (Interpreter.runLine env (Interpreter.execLine env depth))).leaves session).frame.conditions =
        session.frame.conditions
    | .error _ _ =>
      session.frame.conditions <:+
        ((endLoop env (Interpreter.runLine env (Interpreter.execLine env depth))).leaves session).frame.conditions := by
  have passed := @passes_balanced _ depth _ env (fun below _ => keepsChains env below) loop outer loops nested
  generalize Interpreter.runLine env (Interpreter.execLine env depth) = runLine at passed ⊢
  -- what is known of the passes is put together with how they have ended
  let Kept (frame : Frame) : Prop :=
    match passes env runLine loop outer.length session.frame.conditions.length session with
    | .ok _ _ | .error (.error _) _ => frame.conditions = session.frame.conditions
    | .error _ _ => session.frame.conditions <:+ frame.conditions
  have ends : Meets (fun _ after => Kept after.frame) (fun _ after => Kept after.frame)
      (endLoop env runLine) session := by
    refine endLoop_meets loops passed.ran (fun answer reached holds => ?_) (fun exit reached holds => ?_)
      fun _ kept => kept
    · obtain ⟨level, ran⟩ := holds
      simp only [Kept, ran]
      exact level.conditions
    · obtain ⟨breaks, ran⟩ := holds
      simp only [Kept, ran]
      cases exit <;> exact breaks
  have kept : Kept ((endLoop env runLine).leaves session).frame := Meets.leaves ends
  simp only [Kept] at kept
  split at kept <;> exact kept

def chainedBody : List BodyLine :=
  [⟨"if(1)", 3⟩, ⟨"foreach(1,2,k)", 4⟩, ⟨"if(k)", 5⟩, ⟨"break", 6⟩, ⟨"else", 7⟩, ⟨"endif", 8⟩, ⟨"endfor", 9⟩,
   ⟨"endif", 10⟩]

theorem chainedBody_nested : Nested (Interpreter.rewrite [[], []]) 0 chainedBody := by
  have inner : Nested (Interpreter.rewrite [[], []]) 0
      [⟨"if(k)", 5⟩, ⟨"break", 6⟩, ⟨"else", 7⟩, ⟨"endif", 8⟩] :=
    .opens (.simple "if(k)" 5 (by decide)) (by decide) <|
      .command (.simple "break" 6 (by decide)) (by decide) (by decide) <|
        .otherwise (.simple "else" 7 (by decide)) (by decide) <|
          .closes (.simple "endif" 8 (by decide)) (by decide) .done
  exact .opens (.simple "if(1)" 3 (by decide)) (by decide) <|
    .loop (.simple "foreach(1,2,k)" 4 (by decide)) (.simple "endfor" 9 (by decide)) (by decide) inner (by decide) <|
      .closes (.simple "endif" 10 (by decide)) (by decide) .done

/-- Two passes over the body, in a branch of a chain that was open before. -/
theorem chainedBody_balanced :
    let env : Env Unit := {}
    let loop : Loop := { name := "i", source := .list ["a", "b"] 1 "a, b", mode := .reading, lines := chainedBody }
    let session : Session Unit :=
      { Session.start {} () with frame := { line := 11, conditions := [.ifTrue], loops := [loop] } }
    (session.frame.loops = [loop] ∧ Nested (Interpreter.rewrite session.frame.aliasTables) 0 loop.lines) ∧
      ((endLoop env (Interpreter.runLine env (Interpreter.execLine env 3))).leaves session).frame.conditions =
        [.ifTrue] := by
  intro env loop session
  have nested : Nested (Interpreter.rewrite session.frame.aliasTables) 0 loop.lines := chainedBody_nested
  refine ⟨⟨rfl, nested⟩, ?_⟩
  have balanced := endLoop_balanced env 3 (show session.frame.loops = [loop] from rfl) nested
  have passed : (passes env (Interpreter.runLine env (Interpreter.execLine env 3)) loop ([] : List Loop).length
      session.frame.conditions.length session matches .ok _ _) = true := by decide +kernel
  generalize passes env (Interpreter.runLine env (Interpreter.execLine env 3)) loop ([] : List Loop).length
    session.frame.conditions.length session = result at balanced passed
  cases result with
  | ok answer reached => exact balanced
  | error exit reached => cases passed

end Flow

end CommandScript
