import CommandScript.Proofs.Structured.Simulation

/-! Lines of a script that change nothing but the control: those of branches that are not taken, those
after a loop has been left, and those of a body that is being read. -/

namespace CommandScript

variable {σ α β : Type}

namespace Text

theorem trimLeft_trimLeft (s : Text) : trimLeft (trimLeft s) = trimLeft s := by
  unfold trimLeft
  induction s with
  | nil => rfl
  | cons c rest ih =>
      cases blank : isBlank c with
      | true => simpa [List.dropWhile_cons, blank] using ih
      | false => simp [blank]

theorem trimRight_trimRight (s : Text) : trimRight (trimRight s) = trimRight s := by
  have again := trimLeft_trimLeft s.reverse
  unfold trimLeft at again
  simp only [trimRight, List.reverse_reverse, again]

theorem trimLeft_trimRight {s : Text} (trimmed : trimLeft s = s) : trimLeft (trimRight s) = trimRight s := by
  obtain ⟨tail, whole⟩ : trimRight s <+: s := by
    have suffix := (List.dropWhile_suffix isBlank (l := s.reverse)).reverse
    rwa [List.reverse_reverse] at suffix
  cases start : trimRight s with
  | nil => rfl
  | cons c rest =>
      have visible : isBlank c = false := by
        rw [start] at whole
        rw [← whole, List.cons_append] at trimmed
        exact Flow.head_of_trimLeft trimmed
      simp [trimLeft, visible]

theorem trimLeft_trim (s : Text) : trimLeft (trim s) = trim s := trimLeft_trimRight (trimLeft_trimLeft s)

theorem trim_trim (s : Text) : trim (trim s) = trim s := by
  have first : trim (trim s) = trimRight (trim s) := congrArg trimRight (trimLeft_trim s)
  rw [first]
  exact trimRight_trimRight _

theorem splitStatements_trimmed {line piece : Text} {found : List Text} (split : splitStatements line = .ok found)
    (member : piece ∈ found) : trim piece = piece ∧ piece ≠ [] := by
  unfold splitStatements at split
  cases scanned : pieces (Span.scan line) with
  | error error => simp [scanned, Except.map] at split
  | ok parts =>
      simp only [scanned, Except.map, Except.ok.injEq] at split
      rw [← split, List.mem_filter, List.mem_map] at member
      obtain ⟨⟨part, _, same⟩, filled⟩ := member
      refine ⟨?_, by simpa using filled⟩
      rw [← same]
      exact trim_trim part

end Text

namespace ScriptLine

variable (line : ScriptLine)

theorem trimmed : Text.trim line.text = line.text :=
  (Text.splitStatements_trimmed line.single (List.mem_singleton_self _)).1

theorem filled : line.text ≠ [] := (Text.splitStatements_trimmed line.single (List.mem_singleton_self _)).2

theorem trimmedLeft : Text.trimLeft line.text = line.text := by
  have same := Text.trimLeft_trim line.text
  rwa [line.trimmed] at same

end ScriptLine

namespace Structured

def Quiet (env : Env σ) : Prop :=
  ∀ hook ∈ env.services.hooks, ∀ args host, (hook.handler args host).1.result = .ok ()

theorem emit_quiet {env : Env σ} (quiet : Quiet env) (event : Text) (args : List Text) (host : σ) :
    (env.services.emit event args host).1.result = .ok () := by
  have told (hooks : List (Hook σ)) (all : ∀ hook ∈ hooks, hook ∈ env.services.hooks) (host : σ) :
      (Services.tell args hooks host).1.result = .ok () := by
    induction hooks generalizing host with
    | nil => rfl
    | cons hook rest ih =>
        simp only [Services.tell, quiet hook (all hook (by simp)) args host]
        exact ih (fun hook member => all hook (by simp [member])) _
  exact told _ (fun _ member => (List.mem_filter.mp member).1) host

variable {env : Env σ} {control : Control} {Fails : Control → Prop}

theorem emit_eq (quiet : Quiet env) (event : Text) (args : List Text) (session : Session σ) :
    ∃ store host, Interpreter.emit env event args session = .ok () { session with store, host } ∧
      ∀ control, Interpreter.emit env event args (session.placed control) =
        .ok () (Session.placed { session with store, host } control) := by
  have heard := emit_quiet quiet event args session.host
  exact ⟨_, _, Interpreter.emit_heard heard,
    fun control => @Interpreter.emit_heard _ _ (session.placed control) _ _ heard⟩

theorem emit_simulates (quiet : Quiet env) (event : Text) (args : List Text) :
    Simulates control (Interpreter.emit env event args) (Interpreter.emit env event args)
      (fun _ _ after => after = control) Fails := by
  intro session
  obtain ⟨store, host, heard, heardPlaced⟩ := emit_eq quiet event args session
  rw [heard, heardPlaced]
  exact .ok rfl

def flatLine (env : Env σ) (depth : Nat) (line : BodyLine) : Run σ Unit := do
  Run.modifyFrame ({ · with line := line.number })
  Interpreter.runLine env (Interpreter.execLine env depth) line.text

def flat (env : Env σ) (depth : Nat) (lines : List BodyLine) : Run σ Unit := lines.forM (flatLine env depth)

theorem visit_simulates (quiet : Quiet env) {depth : Nat} {line : BodyLine} {action : Run σ β}
    {Ends : Unit → β → Control → Prop}
    (acts : ∀ session, session.frame.line = line.number →
      Agree Ends Fails (Interpreter.execLine env depth line.text (session.placed control)) (action session)) :
    Simulates control (flatLine env depth line) (visit env line action) Ends Fails := by
  have located (error : ScriptError) (after : Control) (failed : Fails after) :
      Simulates after
        (do
          let error := Interpreter.locate (← get).frame line.text error
          Interpreter.emit env "on_error" [error.kind.label]
          throw (.error error) : Run σ Unit)
        (do
          let error := Interpreter.locate (← get).frame line.text error
          Interpreter.emit env "on_error" [error.kind.label]
          throw (.error error) : Run σ β) Ends Fails := by
    refine Simulates.read fun session => ?_
    exact Simulates.next (emit_simulates quiet _ _) fun _ _ => Simulates.throw failed
  have told (value : β) (after : Control) (ended : Ends () value after) :
      Simulates after (Interpreter.emit env "after_line" [line.text])
        (do
          Interpreter.emit env "after_line" [line.text]
          return value) Ends Fails :=
    Simulates.returning (emit_simulates quiet _ _) fun _ _ _ same => same ▸ ended
  intro session
  obtain ⟨store, host, heard, heardPlaced⟩ := emit_eq quiet "before_line" [line.text]
    { session with frame := { session.frame with line := line.number, statement := line.text } }
  have ready := acts
    { session with frame := { session.frame with line := line.number, statement := line.text }, store, host } rfl
  have agree := (ready.onError located fun _ failed => failed).bind fun _ => told
  have flatStarts : flatLine env depth line (session.placed control) =
      EStateM.bind (Interpreter.emit env "before_line" [line.text]) _ (Session.placed
        { session with frame := { session.frame with line := line.number, statement := line.text } } control) := rfl
  have treeStarts : visit env line action session =
      EStateM.bind (Interpreter.emit env "before_line" [line.text]) _
        { session with frame := { session.frame with line := line.number, statement := line.text } } := rfl
  rw [flatStarts, treeStarts]
  unfold EStateM.bind
  rw [heard, heardPlaced]
  exact agree

end Structured

namespace Control

def leaving (control : Control) : Bool := control.loops.head?.any (·.mode = .leaving)

def collecting (control : Control) : Bool := control.loops.head?.any Loop.isCollecting

def Unaliased (control : Control) : Prop := control.aliases = [] ∧ ∀ loop ∈ control.loops, loop.aliases = []

theorem Unaliased.apply {control : Control} (unaliased : control.Unaliased) (session : Session σ) (line : Text) :
    AliasTable.apply (session.placed control).frame.aliasTables line = line := by
  have tables : ((session.placed control).frame.aliasTables).filter (· ≠ []) = [] := by
    rw [List.filter_eq_nil_iff]
    intro table member
    simp only [Frame.aliasTables, List.mem_cons, List.mem_map, List.mem_reverse] at member
    rcases member with same | ⟨loop, member, same⟩
    · have none : table = control.aliases := same
      simp [none, unaliased.1]
    · simp [← same, unaliased.2 loop member]
  simp only [AliasTable.apply, tables, List.isEmpty_nil, ↓reduceIte]

end Control

namespace Structured

variable {env : Env σ} {control : Control} {Fails : Control → Prop}

theorem execLine_single (line : ScriptLine) (depth : Nat) :
    Interpreter.execLine env (depth + 1) line.text =
      Interpreter.statement env (Interpreter.execLine env depth) line.text := by
  simp only [Interpreter.execLine, line.single, Run.ofMalformed, Run.ofExcept, pure_bind, Interpreter.statements]
  change (do
    Interpreter.statement env (Interpreter.execLine env depth) line.text
    return ()) = _
  rw [bind_pure_unit]

theorem statement_line (line : ScriptLine) (exec : Text → Run σ Unit) :
    Interpreter.statement env exec line.text = (do
      let frame := (← get).frame
      if frame.loops.head?.any Loop.isCollecting then Interpreter.collect env exec line.text
      else
        let text :=
          if Interpreter.keepsAliases line.text then line.text
          else AliasTable.apply frame.aliasTables line.text
        let leaving := frame.loops.head?.any (·.mode = .leaving)
        if ← Interpreter.passConditions env leaving text then return
        if !leaving then Interpreter.runStatement env exec text) := by
  have filled : line.text.isEmpty = false := by simpa using line.filled
  unfold Interpreter.statement
  simp only [line.uncommented, line.trimmed, filled, line.balanced, Run.ofMalformed, Run.ofExcept, pure_bind,
    Bool.false_eq_true, ↓reduceIte]

theorem statement_reading (line : ScriptLine) (exec : Text → Run σ Unit) {session : Session σ}
    (collecting : session.frame.loops.head?.any Loop.isCollecting = true) :
    Interpreter.statement env exec line.text session = Interpreter.collect env exec line.text session := by
  rw [statement_line]
  change (if session.frame.loops.head?.any Loop.isCollecting then Interpreter.collect env exec line.text else _)
    session = _
  rw [if_pos collecting]

theorem statement_collecting (line : ScriptLine) (exec : Text → Run σ Unit) (collecting : control.collecting)
    (session : Session σ) : Interpreter.statement env exec line.text (session.placed control) =
      Interpreter.collect env exec line.text (session.placed control) :=
  statement_reading line exec collecting

theorem statement_judged (line : ScriptLine) (exec : Text → Run σ Unit) (unaliased : control.Unaliased)
    (notCollecting : control.collecting = false) (session : Session σ) :
    Interpreter.statement env exec line.text (session.placed control) =
      (do
        if ← Interpreter.passConditions env control.leaving line.text then return
        if !control.leaving then Interpreter.runStatement env exec line.text : Run σ Unit)
        (session.placed control) := by
  rw [statement_line]
  change (if control.collecting then _ else (do
    let text :=
      if Interpreter.keepsAliases line.text then line.text
      else AliasTable.apply (session.placed control).frame.aliasTables line.text
    if ← Interpreter.passConditions env control.leaving text then return
    if !control.leaving then Interpreter.runStatement env exec text)) (session.placed control) = _
  rw [notCollecting, unaliased.apply]
  simp only [Bool.false_eq_true, ↓reduceIte, ite_self]

theorem passConditions_eq (line : Text) (session : Session σ) :
    Interpreter.passConditions env control.leaving line (session.placed control) =
      (match Flow.judge control.leaving control.conditions line with
      | .runs => return false
      | .consumed after => do
        Interpreter.setConditions after
        return true
      | .failed error => Run.fail (.flow error)
      | .asks word text => do
        let decided ← Run.caught (Interpreter.decideCondition env word text)
        Interpreter.setConditions (Flow.settle word decided control.conditions)
        Run.ofExcept .error (decided.map fun _ => true) : Run σ Bool) (session.placed control) := rfl

end Structured

/-- No alias is defined and no body is being read, so that lines reach the conditional stack as they are. -/
structure Control.Reading (control : Control) : Prop where
  unaliased : control.Unaliased
  open' : control.collecting = false

namespace Structured

variable {env : Env σ} {control : Control} {exec : Text → Run σ Unit}

theorem statement_consumed (reading : control.Reading) (line : ScriptLine) {after : List Branch}
    (judged : Flow.judge control.leaving control.conditions line.text = .consumed after) (session : Session σ) :
    Interpreter.statement env exec line.text (session.placed control) =
      .ok () (session.placed { control with conditions := after }) := by
  rw [statement_judged line exec reading.unaliased reading.open']
  change EStateM.bind (Interpreter.passConditions env control.leaving line.text) _ (session.placed control) = _
  unfold EStateM.bind
  rw [passConditions_eq, judged]
  rfl

theorem statement_runs (reading : control.Reading) (line : ScriptLine)
    (judged : Flow.judge control.leaving control.conditions line.text = .runs) (session : Session σ) :
    Interpreter.statement env exec line.text (session.placed control) =
      (if control.leaving then pure () else Interpreter.runStatement env exec line.text) (session.placed control) := by
  rw [statement_judged line exec reading.unaliased reading.open']
  change EStateM.bind (Interpreter.passConditions env control.leaving line.text) _ (session.placed control) = _
  unfold EStateM.bind
  rw [passConditions_eq, judged]
  cases left : control.leaving <;> rfl

/-- The lines are announced, the control goes from one to the other, and nothing else happens. -/
def Passes (env : Env σ) (depth : Nat) (control : Control) (lines : List BodyLine) (after : Control) : Prop :=
  Simulates control (flat env depth lines) (pass env lines) (fun _ _ reached => reached = after) (fun _ => False)

variable {depth : Nat} {after last : Control}

theorem Passes.nil : Passes env depth control [] control := Simulates.pure rfl

theorem flat_append (depth : Nat) (lines more : List BodyLine) :
    flat env depth (lines ++ more) = (do flat env depth lines; flat env depth more) := by
  simp only [flat, List.forM_eq_forM, List.forM_append]

theorem pass_append (lines more : List BodyLine) :
    pass env (lines ++ more) = (do pass env lines; pass env more) := by
  simp only [pass, List.forM_eq_forM, List.forM_append]

theorem flat_cons (depth : Nat) (line : BodyLine) (rest : List BodyLine) :
    flat env depth (line :: rest) = (do flatLine env depth line; flat env depth rest) := rfl

theorem Passes.append {lines more : List BodyLine} (first : Passes env depth control lines after)
    (second : Passes env depth after more last) : Passes env depth control (lines ++ more) last := by
  unfold Passes
  rw [flat_append, pass_append]
  exact Simulates.next first fun _ _ => second

theorem line_passes (quiet : Quiet env) (line : ScriptLine)
    (acts : ∀ session : Session σ, session.frame.line = line.number →
      Interpreter.statement env (Interpreter.execLine env depth) line.text (session.placed control) =
        .ok () (session.placed after)) :
    Simulates control (flatLine env (depth + 1) line.toBodyLine) (visit env line.toBodyLine (pure ()))
      (fun _ _ reached => reached = after) (fun _ => False) := by
  refine visit_simulates quiet fun session atLine => ?_
  rw [execLine_single, acts session atLine]
  exact .ok rfl

theorem Passes.cons {line : BodyLine} {rest : List BodyLine}
    (first : Simulates control (flatLine env depth line) (visit env line (pure ()))
      (fun _ _ reached => reached = after) (fun _ => False))
    (second : Passes env depth after rest last) : Passes env depth control (line :: rest) last :=
  Simulates.next first fun _ _ => second

theorem consumed_passes (quiet : Quiet env) (reading : control.Reading) (line : ScriptLine) {conditions : List Branch}
    (judged : Flow.judge control.leaving control.conditions line.text = .consumed conditions) :
    Simulates control (flatLine env (depth + 1) line.toBodyLine) (visit env line.toBodyLine (pure ()))
      (fun _ _ reached => reached = { control with conditions }) (fun _ => False) :=
  line_passes quiet line fun session _ => statement_consumed reading line judged session

/-- Nothing runs: the innermost loop is being left, or the current branch is passed over. -/
def Idle (control : Control) : Prop := control.leaving ∨ control.conditions.head?.any Branch.isSkipping

theorem idle_passes (quiet : Quiet env) (reading : control.Reading) (idle : Idle control) (line : ScriptLine)
    {role : Flow.Role} (known : Flow.role? line.text = some role) (outside : role.isOutside) :
    Simulates control (flatLine env (depth + 1) line.toBodyLine) (visit env line.toBodyLine (pure ()))
      (fun _ _ reached => reached = control) (fun _ => False) := by
  have judged : Flow.judge control.leaving control.conditions line.text = _ :=
    Flow.judge_outside known outside
  cases skips : control.conditions.head?.any Branch.isSkipping with
  | true =>
      rw [skips] at judged
      exact consumed_passes quiet reading line judged
  | false =>
      rw [skips] at judged
      have left : control.leaving := idle.resolve_right (by simp [skips])
      refine line_passes quiet line fun session _ => ?_
      rw [statement_runs reading line judged session, left]
      rfl

theorem judge_idle_opening (idle : Idle control) {line : Text} {text : Text}
    (known : Flow.role? line = some (.test .opening)) (tested : Flow.conditionText .opening line = .ok text) :
    ∃ branch : Branch, (branch.isTaken ∨ branch = .skip) ∧
      (control.leaving ∨ branch.isSkipping) ∧
      Flow.judge control.leaving control.conditions line = .consumed (branch :: control.conditions) := by
  rw [Flow.judge_of_test known tested]
  cases skips : control.conditions.head?.any Branch.isSkipping with
  | true => exact ⟨.skip, .inr rfl, .inr rfl, by simp [Flow.testLine, skips]⟩
  | false =>
      have left : control.leaving := idle.resolve_right (by simp [skips])
      exact ⟨.ifTrue, .inl rfl, .inl left, by simp [Flow.testLine, skips, left, Flow.enter]⟩

theorem judge_decided {leaving : Bool} {branch : Branch} {conditions : List Branch} {line : Text}
    (decided : branch.isTaken ∨ branch = .skip)
    (further : Flow.role? line = some .otherwise ∨
      ∃ text, Flow.role? line = some (.test .continuing) ∧ Flow.conditionText .continuing line = .ok text) :
    Flow.judge leaving (branch :: conditions) line = .consumed (.skip :: conditions) := by
  rcases further with known | ⟨text, known, tested⟩
  · rw [Flow.judge_of_otherwise known]
    rcases decided with taken | rfl
    · cases branch <;> simp_all [Branch.isTaken, Branch.isPending, Flow.replaceTop]
    · rfl
  · rw [Flow.judge_of_test known tested]
    rcases decided with taken | rfl
    · cases branch <;> simp_all [Branch.isTaken, Flow.testLine, Flow.replaceTop]
    · rfl

end Structured

theorem Control.Reading.withConditions {control : Control} (reading : control.Reading) (conditions : List Branch) :
    Control.Reading { control with conditions } := ⟨reading.unaliased, reading.open'⟩

open Structured

variable {env : Env σ} {depth : Nat}

mutual

theorem Script.passes_idle (quiet : Quiet env) {inLoop : Bool} (script : Script inLoop) {control : Control}
    (reading : control.Reading) (idle : Idle control) : Passes env (depth + 1) control script.lines control :=
  match script with
  | .done => .nil
  | .plain line next =>
      .cons (idle_passes quiet reading idle line.toScriptLine line.role rfl)
        (next.passes_idle quiet reading idle)
  | .leave line next =>
      .cons (idle_passes quiet reading idle line.toScriptLine line.role rfl)
        (next.passes_idle quiet reading idle)
  | .back line next =>
      .cons (idle_passes quiet reading idle line.toScriptLine line.role rfl)
        (next.passes_idle quiet reading idle)
  | .choice line body rest next => by
      obtain ⟨branch, decided, nothing, judged⟩ := judge_idle_opening idle line.role line.tested
      refine .cons (consumed_passes quiet reading line.toScriptLine judged) ?_
      refine .append (body.passes_idle quiet (reading.withConditions _) nothing) ?_
      exact .append (rest.passes quiet reading decided) (next.passes_idle quiet reading idle)
  | .loop header body close next => by
      refine .cons (idle_passes quiet reading idle header.toScriptLine header.role rfl) ?_
      refine .append (body.passes_idle quiet reading idle) ?_
      exact .cons (idle_passes quiet reading idle close.toScriptLine close.role rfl)
        (next.passes_idle quiet reading idle)

theorem Branches.passes (quiet : Quiet env) {inLoop : Bool} (rest : Branches inLoop) {control : Control}
    {branch : Branch} (reading : control.Reading) (decided : branch.isTaken ∨ branch = .skip) :
    Passes env (depth + 1) { control with conditions := branch :: control.conditions } rest.lines control :=
  match rest with
  | .close line =>
      .cons (consumed_passes quiet (reading.withConditions _) line.toScriptLine (Flow.judge_of_chainEnd line.role)) .nil
  | .otherwise line body close => by
      refine .cons (consumed_passes quiet (reading.withConditions _) line.toScriptLine
        (judge_decided decided (.inl line.role))) ?_
      refine .append (body.passes_idle quiet (reading.withConditions _) (.inr rfl)) ?_
      exact .cons (consumed_passes quiet (reading.withConditions _) close.toScriptLine
        (Flow.judge_of_chainEnd close.role)) .nil
  | .elseIf line body rest => by
      refine .cons (consumed_passes quiet (reading.withConditions _) line.toScriptLine
        (judge_decided decided (.inr ⟨_, line.role, line.tested⟩))) ?_
      exact .append (body.passes_idle quiet (reading.withConditions _) (.inr rfl))
        (rest.passes quiet reading (.inr rfl))

end

namespace Loop

def read (loop : Loop) (lines : List BodyLine) : Loop := { loop with lines := loop.lines ++ lines }

@[simp] theorem read_nil (loop : Loop) : loop.read [] = loop := by simp [read]

@[simp] theorem read_read (loop : Loop) (lines more : List BodyLine) :
    (loop.read lines).read more = loop.read (lines ++ more) := by simp [read]

end Loop

namespace Structured

variable {exec : Text → Run σ Unit} {aliases : AliasTable} {conditions : List Branch} {loop : Loop}
  {outer : List Loop} {blocks : Flow.BlockCount}

theorem statement_collects (collects : loop.isCollecting) (line : ScriptLine) {after : Flow.BlockCount}
    (tracked : blocks.track line.text = (after, .ok false)) (session : Session σ)
    (atLine : session.frame.line = line.number) :
    Interpreter.statement env exec line.text (session.placed ⟨aliases, conditions, loop :: outer, blocks⟩) =
      .ok () (session.placed ⟨aliases, conditions, loop.read [line.toBodyLine] :: outer, after⟩) := by
  have collecting : Control.collecting ⟨aliases, conditions, loop :: outer, blocks⟩ := collects
  have counted : (session.placed ⟨aliases, conditions, loop :: outer, blocks⟩).frame.blocks.track line.text =
      (after, .ok false) := tracked
  have here : (session.placed ⟨aliases, conditions, loop :: outer, blocks⟩).frame.line = line.number := atLine
  rw [statement_collecting line exec collecting, Interpreter.collect_counted, counted, here]
  rfl

/-- The counter of open blocks goes from one count to another over lines that do not end the body. -/
inductive Tracks : Flow.BlockCount → List BodyLine → Flow.BlockCount → Prop
  | nil {blocks : Flow.BlockCount} : Tracks blocks [] blocks
  | cons {before after last : Flow.BlockCount} (line : ScriptLine) {rest : List BodyLine} :
      before.track line.text = (after, .ok false) → Tracks after rest last →
      Tracks before (line.toBodyLine :: rest) last

theorem Tracks.append {before after last : Flow.BlockCount} {lines more : List BodyLine}
    (first : Tracks before lines after) (second : Tracks after more last) : Tracks before (lines ++ more) last := by
  induction first with
  | nil => exact second
  | cons line tracked _ ih => exact .cons line tracked (ih second)

theorem Tracks.passes (quiet : Quiet env) {lines : List BodyLine} {after : Flow.BlockCount}
    (tracks : Tracks blocks lines after) (collects : loop.isCollecting) :
    Passes env (depth + 1) ⟨aliases, conditions, loop :: outer, blocks⟩ lines
      ⟨aliases, conditions, loop.read lines :: outer, after⟩ := by
  induction tracks generalizing loop with
  | nil =>
      rw [loop.read_nil]
      exact .nil
  | cons line tracked _ ih =>
      refine .cons (line_passes quiet line fun session atLine =>
        statement_collects collects line tracked session atLine) ?_
      have others := @ih (loop.read [line.toBodyLine]) collects
      rw [Loop.read_read] at others
      exact others

theorem Tracks.line (line : ScriptLine) {role : Flow.Role} (known : Flow.role? line.text = some role)
    (notEnd : role ≠ .loopEnd) {rest : List BodyLine} {last : Flow.BlockCount}
    (second : Tracks (role.count blocks) rest last) : Tracks blocks (line.toBodyLine :: rest) last :=
  .cons line (Flow.track_of_role line.trimmedLeft known notEnd blocks) second

end Structured

mutual

/-- A script leaves the counts of open blocks as they are, and in between it never brings that of the
loops to zero. -/
theorem Script.tracks {inLoop : Bool} (script : Script inLoop) {loops ifs : Int} (inside : 0 < loops) :
    Tracks ⟨loops, ifs⟩ script.lines ⟨loops, ifs⟩ :=
  match script with
  | .done => .nil
  | .plain line next => .line line.toScriptLine line.role (by decide) (next.tracks inside)
  | .leave line next => .line line.toScriptLine line.role (by decide) (next.tracks inside)
  | .back line next => .line line.toScriptLine line.role (by decide) (next.tracks inside)
  | .choice line body rest next =>
      .line line.toScriptLine line.role (by decide)
        ((body.tracks inside).append ((rest.tracks inside).append (next.tracks inside)))
  | .loop header body close next => by
      have deeper : 0 < loops + 1 := by omega
      refine .line header.toScriptLine header.role (by decide) ((body.tracks deeper).append ?_)
      have inner : loops + 1 ≠ 1 := by omega
      refine .cons close.toScriptLine (Flow.track_inner_loopEnd close.role inner) ?_
      have back : loops + 1 - 1 = loops := by omega
      simp only [Flow.Role.count, back]
      exact next.tracks inside

theorem Branches.tracks {inLoop : Bool} (rest : Branches inLoop) {loops ifs : Int} (inside : 0 < loops) :
    Tracks ⟨loops, ifs + 1⟩ rest.lines ⟨loops, ifs⟩ := by
  have closes (line : BlockLine .chainEnd) : Tracks ⟨loops, ifs + 1⟩ [line.toBodyLine] ⟨loops, ifs⟩ := by
    refine .line line.toScriptLine line.role (by decide) ?_
    have back : ifs + 1 - 1 = ifs := by omega
    simp only [Flow.Role.count, back]
    exact .nil
  exact match rest with
  | .close line => closes line
  | .otherwise line body close =>
      .line line.toScriptLine line.role (by decide) ((body.tracks inside).append (closes close))
  | .elseIf line body rest =>
      .line line.toScriptLine line.role (by decide) ((body.tracks inside).append (rest.tracks inside))

end

end CommandScript
