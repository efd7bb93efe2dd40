import CommandScript.Proofs.Structured.Passing

/-! Loops: opening one, replaying its body pass after pass, and closing it. What a body does is given
here by a simulation of its lines. -/

namespace CommandScript

variable {σ α : Type}

namespace Frame

theorem loopAt?_innermost {frame : Frame} {loop : Loop} {outer : List Loop} (top : frame.loops = loop :: outer) :
    frame.loopAt? outer.length = some loop := by
  simp [loopAt?, top]

theorem modifyLoopAt_innermost {frame : Frame} {loop : Loop} {outer : List Loop} (top : frame.loops = loop :: outer)
    (f : Loop → Loop) : frame.modifyLoopAt outer.length f = { frame with loops := f loop :: outer } := by
  have last : (outer.reverse ++ [loop]).modify outer.length f = outer.reverse ++ [f loop] := by
    simp [List.modify_eq_take_drop]
  simp only [modifyLoopAt, top, List.reverse_cons, last, List.reverse_append, List.reverse_nil,
    List.nil_append, List.reverse_reverse, List.singleton_append]

theorem trimConditions_suffix {frame : Frame} {kept : List Branch} (longer : kept <:+ frame.conditions) :
    frame.trimConditions kept.length = { frame with conditions := kept } := by
  obtain ⟨dropped, whole⟩ := longer
  simp [trimConditions, ← whole]

end Frame

def Loop.replaying (loop : Loop) (lines : List BodyLine) : Loop := { loop.read lines with mode := .replaying }

namespace Structured

variable {env : Env σ} {aliases : AliasTable} {conditions : List Branch} {outer : List Loop}

/-- A loop that has just been opened: its body is to be read, there is nothing in it yet, and a list or
a range may be replayed once for the element that is bound and once for each that remains. -/
structure Fresh (env : Env σ) (loop : Loop) : Prop where
  lines : loop.lines = []
  unaliased : loop.aliases = []
  collects : loop.isCollecting
  enough : loop.mode = .reading → (∀ qualifier type, loop.source ≠ .external qualifier type) →
    Flow.budget env loop = loop.source.remaining.length + 1

def opened (control : Control) (loop : Loop) : Control :=
  { control with loops := loop :: control.loops, blocks := ⟨1, 0⟩ }

end Structured

def Run.Yields (program : Run σ α) (P : α → Prop) : Prop :=
  ∀ session value after, program session = .ok value after → P value

namespace Run.Yields

variable {β : Type} {P : α → Prop}

theorem pure {value : α} (holds : P value) : Yields (pure value : Run σ α) P := by
  rintro _ _ _ ⟨⟩
  exact holds

theorem fail (cause : Cause) : Yields (Run.fail cause : Run σ α) P := by
  intro session value after ended
  change EStateM.Result.error _ _ = _ at ended
  cases ended

theorem given {Q : β → Prop} {program : Run σ β} {next : β → Run σ α} (first : Yields program Q)
    (second : ∀ value, Q value → Yields (next value) P) : Yields (program >>= next) P := by
  intro session value after ended
  change EStateM.bind program next session = _ at ended
  unfold EStateM.bind at ended
  split at ended
  · rename_i reached
    exact second _ (first _ _ _ reached) _ _ _ ended
  · cases ended

theorem bind {program : Run σ β} {next : β → Run σ α} (second : ∀ value, Yields (next value) P) :
    Yields (program >>= next) P :=
  given (fun _ _ _ _ => trivial) fun value (_ : True) => second value

end Run.Yields

namespace Structured

theorem range_fresh (env : Env σ) (name : Text) (start stop : Int) :
    Fresh env { name, source := .range start stop start, mode := Flow.readingIf (start ≤ stop) } where
  lines := rfl
  unaliased := rfl
  collects := by by_cases nonempty : start ≤ stop <;> simp [Loop.isCollecting, Flow.readingIf, nonempty]
  enough := by
    intro reading _
    have nonempty : start ≤ stop := by
      by_cases nonempty : start ≤ stop
      · exact nonempty
      · simp [Flow.readingIf, nonempty] at reading
    simp only [Flow.budget, LoopSource.remaining, List.length_map, List.length_range]
    omega

theorem list_fresh (env : Env σ) (name saved : Text) (fields : List Text) :
    Fresh env { name, source := .list fields (min 1 fields.length) saved,
                mode := Flow.readingIf !fields.isEmpty } where
  lines := rfl
  unaliased := rfl
  collects := by cases fields <;> simp [Loop.isCollecting, Flow.readingIf]
  enough := by
    intro reading _
    cases fields with
    | nil => simp [Flow.readingIf] at reading
    | cons field rest => simp [Flow.budget, LoopSource.remaining]

theorem bindFields_fresh (env : Env σ) (name : Text) : Run.Yields (Flow.bindFields name : Run σ Loop) (Fresh env) := by
  refine .bind fun stored => ?_
  split
  · exact .fail _
  · dsimp only
    split
    · exact .bind fun _ => .pure (list_fresh env _ _ _)
    · exact .pure (list_fresh env _ _ _)

theorem bindFirst_fresh (env : Env σ) (header : LoopHeader) : Run.Yields (Flow.bindFirst env header) (Fresh env) := by
  cases header with
  | range name first last =>
      refine .bind fun start => .bind fun stop => ?_
      dsimp only
      split
      · exact .bind fun _ => .pure (range_fresh env _ _ _)
      · exact .pure (range_fresh env _ _ _)
  | list name literal =>
      cases literal with
      | none =>
          rw [Flow.bindFirst_stored]
          exact bindFields_fresh env name
      | some text =>
          rw [Flow.bindFirst_literal]
          exact .bind fun _ => bindFields_fresh env name
  | external name qualifier type =>
      refine .bind fun answer => ?_
      split
      · exact .pure ⟨rfl, rfl, rfl, fun _ listed => absurd rfl (listed _ _)⟩
      · exact .pure ⟨rfl, rfl, rfl, fun _ listed => absurd rfl (listed _ _)⟩
      · exact .fail _
      · exact .fail _

theorem openLoop_fresh (env : Env σ) (header : LoopHeader) : Run.Yields (Flow.openLoop env header) (Fresh env) :=
  .given (bindFirst_fresh env header) fun _ fresh => .bind fun _ => .bind fun _ =>
    .pure ⟨fresh.lines, fresh.unaliased, fresh.collects, fresh.enough⟩

end Structured

theorem Simulates.yielding {β : Type} {control : Control} {flat : Run σ α} {tree : Run σ β}
    {Ends : α → β → Control → Prop} {Fails : Control → Prop} {P : β → Prop}
    (given : Simulates control flat tree Ends Fails) (yields : Run.Yields tree P) :
    Simulates control flat tree (fun value other after => Ends value other after ∧ P other) Fails := by
  intro session
  have known := yields session
  have agree := given session
  generalize flat (session.placed control) = before at agree ⊢
  generalize tree session = after at agree known ⊢
  cases agree with
  | ok ended => exact .ok ⟨ended, known _ _ rfl⟩
  | error failed => exact .error failed

namespace Structured

variable {env : Env σ}

theorem startLoop_simulates (env : Env σ) (control : Control) (line : Text) :
    Simulates control (Interpreter.startLoop env line) (openHeader env line)
      (fun _ loop after => Fresh env loop ∧ after = opened control loop)
      (fun after => ∃ blocks, after = { control with blocks }) := by
  refine Simulates.bind (Simulates.weaken (Simulates.same (Run.Respects.ofCause _)) (fun _ _ _ ended => ended)
    fun _ same => ⟨control.blocks, same⟩) fun header other after same => ?_
  obtain ⟨rfl, rfl⟩ := same
  refine Simulates.silent { after with blocks := ⟨1, 0⟩ } (fun _ => rfl) ?_
  have opens := (Simulates.same (Flow.openLoop_respects (Session.placed_notable { after with blocks := ⟨1, 0⟩ })
    env header)).yielding (openLoop_fresh env header)
  have pushes : Simulates { after with blocks := ⟨1, 0⟩ }
      (do
        let loop ← Flow.openLoop env header
        Run.modifyFrame fun frame => { frame with loops := loop :: frame.loops })
      (Flow.openLoop env header >>= pure)
      (fun _ loop reached => Fresh env loop ∧ reached = opened after loop)
      (fun reached => ∃ blocks, reached = { after with blocks }) := by
    refine Simulates.bind (opens.weaken (fun _ _ _ ended => ended) fun _ same => ⟨_, same⟩)
      fun loop other reached same => ?_
    obtain ⟨⟨rfl, rfl⟩, fresh⟩ := same
    exact Simulates.settled (opened after loop) (fun _ => rfl) ⟨fresh, rfl⟩
  rwa [bind_pure] at pushes

theorem onError_apply (program : Run σ α) (handler : ScriptError → Run σ α) (session : Session σ) :
    Run.onError program handler session =
      match program session with
      | .ok value after => .ok value after
      | .error (.error error) after => handler error after
      | .error exit after => .error exit after := by
  change EStateM.bind (Run.attempt program) _ session = _
  unfold EStateM.bind Run.attempt
  cases program session with
  | ok value after => rfl
  | error exit after => cases exit <;> rfl

def giveUp (env : Env σ) (conditions : Nat) (error : ScriptError) : Run σ Unit := do
  Run.modifyFrame (·.trimConditions conditions)
  Report.add env error
  Run.fail (.flow .body)

theorem giveUp_leaves (env : Env σ) (conditions : Nat) (error : ScriptError) (session : Session σ) :
    ∃ after, giveUp env conditions error session = .error (.error { cause := .flow .body }) after := by
  have reported (session : Session σ) : ∃ after, Report.add env error session = .ok () after := by
    by_cases documents : env.options.jsonReports
    · exact ⟨_, by simp only [Report.add, documents]; rfl⟩
    · exact ⟨_, by simp only [Report.add, documents]; rfl⟩
  obtain ⟨after, told⟩ := reported { session with frame := session.frame.trimConditions conditions }
  refine ⟨after, ?_⟩
  change EStateM.bind (Report.add env error) _ { session with frame := session.frame.trimConditions conditions } = _
  unfold EStateM.bind
  rw [told]
  rfl

/-- Since the replay of a body ends with the first line that fails, it makes no difference whether the
lines or the whole body is watched. -/
theorem replayLines_eq (env : Env σ) (depth conditions : Nat) (lines : List BodyLine) :
    Flow.replayLines env (Interpreter.runLine env (Interpreter.execLine env depth)) conditions lines =
      Run.onError (flat env depth lines) (giveUp env conditions) := by
  induction lines with
  | nil => rfl
  | cons line rest ih =>
      funext session
      let start := { session with frame := { session.frame with line := line.number } }
      let runs := Interpreter.runLine env (Interpreter.execLine env depth)
      have byLine : Flow.replayLines env runs conditions (line :: rest) session =
          EStateM.bind (Run.onError (runs line.text) (giveUp env conditions))
            (fun _ => Flow.replayLines env runs conditions rest) start := rfl
      have whole : flat env depth (line :: rest) session =
          EStateM.bind (runs line.text) (fun _ => flat env depth rest) start := rfl
      rw [byLine, ih, onError_apply (flat env depth (line :: rest)), whole]
      unfold EStateM.bind
      rw [onError_apply]
      cases runs line.text start with
      | ok value after => exact onError_apply _ _ _
      | error exit after =>
          cases exit with
          | error error =>
              obtain ⟨last, left⟩ := giveUp_leaves env conditions error after
              simp only [left]
          | returned => rfl
          | stopped code => rfl
          | fault fault => rfl
          | exhausted => rfl

variable {control : Control}

theorem giveUp_simulates {β : Type} {Ends : Unit → β → Control → Prop} (error : ScriptError) {after : Control}
    (broken : control.Breaks after) :
    Simulates after (giveUp env control.conditions.length error)
      (do
        Report.add env error
        Run.fail (.flow .body) : Run σ β) Ends control.Breaks := by
  let trimmed : Control := { after with conditions := control.conditions }
  have kept : control.Breaks trimmed := ⟨broken.aliases, List.suffix_refl _, broken.loops⟩
  have cuts (session : Session σ) :
      Run.modifyFrame (·.trimConditions control.conditions.length) (session.placed after) =
        .ok () (session.placed trimmed) := by
    have cut : (session.placed after).frame.trimConditions control.conditions.length =
        (session.placed trimmed).frame := Frame.trimConditions_suffix broken.conditions
    exact congrArg (fun frame => EStateM.Result.ok () { session with frame }) cut
  have told := Simulates.same (Report.add_respects (Session.placed_traceable trimmed) env error)
  refine Simulates.silent trimmed cuts ?_
  refine Simulates.bind (told.weaken (fun _ _ _ ended => ended.2) fun _ same => same ▸ kept) fun _ _ reached same => ?_
  exact Simulates.throw (same ▸ kept)

theorem replayLines_simulates {depth : Nat} {lines : List BodyLine} {body : Run σ Bool}
    (runs : Simulates control (flat env depth lines) body (fun _ left after => control.Reaches left after)
      control.Breaks) :
    Simulates control
      (Flow.replayLines env (Interpreter.runLine env (Interpreter.execLine env depth)) control.conditions.length lines)
      (reported env body) (fun _ left after => control.Reaches left after) control.Breaks := by
  rw [replayLines_eq]
  exact Simulates.onError runs (fun error _ broken => giveUp_simulates error broken) fun _ broken => broken

/-- The control while a loop is replayed: it is still on the stack, and it will be released as it would
have been at its start. -/
structure Holds (env : Env σ) (aliases : AliasTable) (conditions : List Branch) (loop : Loop) (outer : List Loop)
    (after : Control) : Prop where
  aliases : after.aliases = aliases
  conditions : conditions <:+ after.conditions
  loops : ∃ now, after.loops = now :: outer ∧ Flow.closeLoop env now = Flow.closeLoop env loop

def Replayed (env : Env σ) (aliases : AliasTable) (conditions : List Branch) (loop : Loop) (outer : List Loop)
    (answer other : Answer) (after : Control) : Prop :=
  answer = other ∧ after.conditions = conditions ∧ Holds env aliases conditions loop outer after

/-- The lines of a body do what the tree does, whatever pass it is. -/
def BodyRuns (env : Env σ) (depth : Nat) (lines : List BodyLine) (body : Run σ Bool) (aliases : AliasTable)
    (conditions : List Branch) (outer : List Loop) : Prop :=
  ∀ (loop : Loop) (blocks : Flow.BlockCount), loop.mode = .replaying → loop.aliases = [] →
    Simulates ⟨aliases, conditions, loop :: outer, blocks⟩ (flat env depth lines) body
      (fun _ left after => Control.Reaches ⟨aliases, conditions, loop :: outer, blocks⟩ left after)
      (Control.Breaks ⟨aliases, conditions, loop :: outer, blocks⟩)

variable {aliases : AliasTable} {conditions : List Branch} {outer : List Loop} {loop : Loop}
  {blocks : Flow.BlockCount}

theorem advance_eq (session : Session σ) :
    Flow.advance env outer.length (session.placed ⟨aliases, conditions, loop :: outer, blocks⟩) =
      (let step := fun source => Run.modifyFrame (·.modifyLoopAt outer.length fun loop => { loop with source })
      match loop.source with
      | .list fields position saved =>
        match fields[position]? with
        | none => return .noMore
        | some field => do
          Run.put loop.name field
          step (.list fields (position + 1) saved)
          return .more
      | .range start stop current => do
        step (.range start stop (current + 1))
        if current + 1 > stop then return .noMore
        Run.put loop.name (Text.ofInt (current + 1))
        return .more
      | .external qualifier type => Flow.askSource env .next qualifier type loop.name : Run σ Answer)
        (session.placed ⟨aliases, conditions, loop :: outer, blocks⟩) := by
  have top : (session.placed ⟨aliases, conditions, loop :: outer, blocks⟩).frame.loopAt? outer.length = some loop :=
    Frame.loopAt?_innermost rfl
  simp only [Flow.advance, bind, EStateM.bind, EStateM.get_apply]
  rewrite [top]
  rfl

theorem step_eq (source : LoopSource) (session : Session σ) :
    Run.modifyFrame (·.modifyLoopAt outer.length fun loop => { loop with source })
        (session.placed ⟨aliases, conditions, loop :: outer, blocks⟩) =
      .ok () (session.placed ⟨aliases, conditions, { loop with source } :: outer, blocks⟩) := by
  have moved : (session.placed ⟨aliases, conditions, loop :: outer, blocks⟩).frame.modifyLoopAt outer.length
      (fun loop => { loop with source }) =
      (session.placed ⟨aliases, conditions, { loop with source } :: outer, blocks⟩).frame :=
    Frame.modifyLoopAt_innermost rfl _
  exact congrArg (fun frame => EStateM.Result.ok () { session with frame }) moved

theorem advance_element (env : Env σ) {element : Text} {rest : List Text}
    (listed : ∀ qualifier type, loop.source ≠ .external qualifier type)
    (remaining : loop.source.remaining = element :: rest) :
    ∃ source : LoopSource, source.remaining = rest ∧ (∀ qualifier type, source ≠ .external qualifier type) ∧
      Flow.closeLoop env { loop with source } = Flow.closeLoop env loop ∧
      ∀ session : Session σ,
        Flow.advance env outer.length (session.placed ⟨aliases, conditions, loop :: outer, blocks⟩) =
          .ok .more ((session.put loop.name element).placed
            ⟨aliases, conditions, { loop with source } :: outer, blocks⟩) := by
  cases known : loop.source with
  | list fields position saved =>
      rw [known, LoopSource.remaining] at remaining
      have found : fields[position]? = some element := by
        rw [← List.head?_drop, remaining]
        rfl
      refine ⟨.list fields (position + 1) saved, ?_, nofun,
        by simp only [Flow.closeLoop, Flow.giveBack, Loop.sourceKey?, Session.note, known], fun session => ?_⟩
      · rw [LoopSource.remaining, ← List.tail_drop, remaining]
        rfl
      · rw [advance_eq]
        simp only [known, found]
        change EStateM.bind (Run.modifyFrame fun frame => frame.modifyLoopAt outer.length fun loop =>
          { loop with source := .list fields (position + 1) saved }) (fun _ => pure Answer.more)
          ((session.put loop.name element).placed ⟨aliases, conditions, loop :: outer, blocks⟩) = _
        unfold EStateM.bind
        rw [step_eq]
        rfl
  | range start stop current =>
      rw [known, LoopSource.remaining] at remaining
      obtain ⟨count, left⟩ : ∃ count, (stop - current).toNat = count + 1 := by
        cases left : (stop - current).toNat with
        | zero => simp [left] at remaining
        | succ count => exact ⟨count, rfl⟩
      rw [left, List.range_succ_eq_map, List.map_cons, List.cons.injEq, List.map_map] at remaining
      obtain ⟨first, others⟩ := remaining
      refine ⟨.range start stop (current + 1), ?_, nofun,
        by simp only [Flow.closeLoop, Flow.giveBack, Loop.sourceKey?, Session.note, known], fun session => ?_⟩
      · have fewer : (stop - (current + 1)).toNat = count := by omega
        rw [LoopSource.remaining, fewer, ← others]
        refine List.map_congr_left fun offset _ => congrArg Text.ofInt ?_
        show current + 1 + 1 + (offset : Int) = current + 1 + ((offset + 1 : Nat) : Int)
        omega
      · have goesOn : ¬current + 1 > stop := by omega
        rw [advance_eq]
        simp only [known, goesOn, ↓reduceIte]
        change EStateM.bind (Run.modifyFrame fun frame => frame.modifyLoopAt outer.length fun loop =>
          { loop with source := .range start stop (current + 1) }) (fun _ => do
            Run.put loop.name (Text.ofInt (current + 1))
            return Answer.more) (session.placed ⟨aliases, conditions, loop :: outer, blocks⟩) = _
        unfold EStateM.bind
        have shown : Text.ofInt (current + 1) = element := by
          rw [← first]
          exact congrArg Text.ofInt (Int.add_zero _).symm
        rw [step_eq, shown]
        rfl
  | external qualifier type => exact absurd known (listed qualifier type)

theorem advance_end (env : Env σ) (listed : ∀ qualifier type, loop.source ≠ .external qualifier type)
    (remaining : loop.source.remaining = []) :
    ∃ source : LoopSource, Flow.closeLoop env { loop with source } = Flow.closeLoop env loop ∧
      ∀ session : Session σ,
        Flow.advance env outer.length (session.placed ⟨aliases, conditions, loop :: outer, blocks⟩) =
          .ok .noMore (session.placed ⟨aliases, conditions, { loop with source } :: outer, blocks⟩) := by
  cases known : loop.source with
  | list fields position saved =>
      have none : fields[position]? = none := by
        rw [known, LoopSource.remaining] at remaining
        simpa using remaining
      have stays (session : Session σ) :
          Flow.advance env outer.length (session.placed ⟨aliases, conditions, loop :: outer, blocks⟩) =
            .ok .noMore (session.placed ⟨aliases, conditions, loop :: outer, blocks⟩) := by
        rw [advance_eq]
        simp only [known, none]
        rfl
      exact ⟨loop.source, rfl, stays⟩
  | range start stop current =>
      have passed : current + 1 > stop := by
        rw [known, LoopSource.remaining] at remaining
        simp at remaining
        omega
      refine ⟨.range start stop (current + 1),
        by simp only [Flow.closeLoop, Flow.giveBack, Loop.sourceKey?, Session.note, known], fun session => ?_⟩
      rw [advance_eq]
      simp only [known, passed, ↓reduceIte]
      change EStateM.bind (Run.modifyFrame fun frame => frame.modifyLoopAt outer.length fun loop =>
        { loop with source := .range start stop (current + 1) }) (fun _ => pure Answer.noMore)
        (session.placed ⟨aliases, conditions, loop :: outer, blocks⟩) = _
      unfold EStateM.bind
      rw [step_eq]
      rfl
  | external qualifier type => exact absurd known (listed qualifier type)

variable {depth : Nat} {lines : List BodyLine} {body : Run σ Bool}

theorem replay_step (runs : BodyRuns env depth lines body aliases conditions outer) (replaying : loop.mode = .replaying)
    (unaliased : loop.aliases = []) (passes count : Nat) (blocks : Flow.BlockCount) {next : Run σ Answer}
    (goesOn : ∀ blocks, Simulates ⟨aliases, conditions, loop :: outer, blocks⟩
      (do
        let answer ← Flow.advance env outer.length
        if answer = .more then
          Flow.replay env (Interpreter.runLine env (Interpreter.execLine env depth)) outer.length
            conditions.length lines passes (count + 1)
        else return answer)
      next (Replayed env aliases conditions loop outer) (Holds env aliases conditions loop outer)) :
    Simulates ⟨aliases, conditions, loop :: outer, blocks⟩
      (Flow.replay env (Interpreter.runLine env (Interpreter.execLine env depth)) outer.length conditions.length
        lines (passes + 1) count)
      (do
        Run.put "for_index" (Text.ofNat count)
        if ← reported env body then return .noMore
        next)
      (Replayed env aliases conditions loop outer) (Holds env aliases conditions loop outer) := by
  have puts : Simulates ⟨aliases, conditions, loop :: outer, blocks⟩
      (Run.put "for_index" (Text.ofNat count) : Run σ Unit) (Run.put "for_index" (Text.ofNat count))
      (fun _ _ reached => reached = ⟨aliases, conditions, loop :: outer, blocks⟩)
      (Holds env aliases conditions loop outer) :=
    Simulates.change (fun _ => rfl) rfl
  refine Simulates.next puts fun _ _ => ?_
  have pass := replayLines_simulates (runs loop blocks replaying unaliased)
  refine Simulates.bind (pass.weaken (fun _ _ _ reached => reached)
    fun _ broken => ⟨broken.aliases, broken.conditions, loop, broken.loops, rfl⟩) fun _ left after reached => ?_
  -- whether the body has left the loop is seen in the mode of the loop that is on the stack then
  cases left with
  | true =>
      have known : after = ⟨aliases, conditions, { loop with mode := .leaving } :: outer, after.blocks⟩ := reached.eq
      generalize after.blocks = ended at known
      subst known
      refine Simulates.observe fun session => ?_
      have top : (session.placed ⟨aliases, conditions, { loop with mode := .leaving } :: outer, ended⟩).frame.loopAt?
          outer.length = some { loop with mode := .leaving } := Frame.loopAt?_innermost rfl
      simp only [top, Option.any_some, decide_true, ↓reduceIte]
      exact Simulates.pure ⟨rfl, rfl, rfl, List.suffix_refl _, _, rfl, rfl⟩
  | false =>
      have known : after = ⟨aliases, conditions, loop :: outer, after.blocks⟩ := reached.eq
      generalize after.blocks = ended at known
      subst known
      refine Simulates.observe fun session => ?_
      have top : (session.placed ⟨aliases, conditions, loop :: outer, ended⟩).frame.loopAt? outer.length = some loop :=
        Frame.loopAt?_innermost rfl
      simp only [top, Option.any_some, replaying, reduceCtorEq, decide_false, Bool.false_eq_true, ↓reduceIte]
      exact goesOn ended

theorem Holds.congr {other : Loop} {after : Control} (held : Holds env aliases conditions other outer after)
    (same : Flow.closeLoop env other = Flow.closeLoop env loop) : Holds env aliases conditions loop outer after := by
  obtain ⟨now, loops, closes⟩ := held.loops
  exact ⟨held.aliases, held.conditions, now, loops, closes.trans same⟩

theorem replay_elements (runs : BodyRuns env depth lines body aliases conditions outer)
    (replaying : loop.mode = .replaying) (unaliased : loop.aliases = [])
    (listed : ∀ qualifier type, loop.source ≠ .external qualifier type) (count : Nat) :
    Simulates ⟨aliases, conditions, loop :: outer, blocks⟩
      (Flow.replay env (Interpreter.runLine env (Interpreter.execLine env depth)) outer.length conditions.length
        lines (loop.source.remaining.length + 1) count)
      (overElements loop.name (reported env body) count loop.source.remaining)
      (Replayed env aliases conditions loop outer) (Holds env aliases conditions loop outer) := by
  generalize left : loop.source.remaining = rest
  -- on the elements that remain: the passes that are granted are one more than these
  induction rest generalizing loop blocks count with
  | nil =>
      have ends (blocks : Flow.BlockCount) : Simulates ⟨aliases, conditions, loop :: outer, blocks⟩
          (do
            let answer ← Flow.advance env outer.length
            if answer = .more then
              Flow.replay env (Interpreter.runLine env (Interpreter.execLine env depth)) outer.length
                conditions.length lines 0 (count + 1)
            else return answer)
          (pure .noMore) (Replayed env aliases conditions loop outer) (Holds env aliases conditions loop outer) := by
        obtain ⟨source, closes, stops⟩ := advance_end env listed left
        refine Simulates.silent _ stops ?_
        simp only [reduceCtorEq, ↓reduceIte]
        exact Simulates.pure ⟨rfl, rfl, rfl, List.suffix_refl _, _, rfl, closes⟩
      have step := replay_step runs replaying unaliased 0 count blocks ends
      simp only [ite_self] at step
      exact step
  | cons element rest ih =>
      refine replay_step runs replaying unaliased (rest.length + 1) count blocks fun blocks => ?_
      obtain ⟨source, fewer, stillListed, closes, moves⟩ := advance_element env listed left
      have binds : Simulates ⟨aliases, conditions, loop :: outer, blocks⟩ (Flow.advance env outer.length)
          (Run.put loop.name element)
          (fun answer _ after =>
            answer = .more ∧ after = ⟨aliases, conditions, { loop with source } :: outer, blocks⟩)
          (Holds env aliases conditions loop outer) := by
        intro session
        rw [moves]
        exact .ok ⟨rfl, rfl⟩
      refine Simulates.bind binds fun answer _ after reached => ?_
      obtain ⟨rfl, rfl⟩ := reached
      simp only [↓reduceIte]
      have others := @ih { loop with source } blocks replaying unaliased stillListed (count + 1) fewer
      exact others.weaken (fun _ _ _ replayed => ⟨replayed.1, replayed.2.1, replayed.2.2.congr closes⟩)
        fun _ held => held.congr closes

theorem replay_source (runs : BodyRuns env depth lines body aliases conditions outer)
    (replaying : loop.mode = .replaying) (unaliased : loop.aliases = []) {qualifier : Option Text} {type : Text}
    (external : loop.source = .external qualifier type) (passes count : Nat) :
    Simulates ⟨aliases, conditions, loop :: outer, blocks⟩
      (Flow.replay env (Interpreter.runLine env (Interpreter.execLine env depth)) outer.length conditions.length
        lines passes count)
      (overSource env qualifier type loop.name (reported env body) passes count)
      (Replayed env aliases conditions loop outer) (Holds env aliases conditions loop outer) := by
  have held (blocks : Flow.BlockCount) :
      Holds env aliases conditions loop outer ⟨aliases, conditions, loop :: outer, blocks⟩ :=
    ⟨rfl, List.suffix_refl _, loop, rfl, rfl⟩
  induction passes generalizing blocks count with
  | zero => exact Simulates.throw (held blocks)
  | succ passes ih =>
      refine replay_step runs replaying unaliased passes count blocks fun blocks => ?_
      have asks : Simulates ⟨aliases, conditions, loop :: outer, blocks⟩ (Flow.advance env outer.length)
          (Flow.askSource env .next qualifier type loop.name)
          (fun answer other after => answer = other ∧ after = ⟨aliases, conditions, loop :: outer, blocks⟩)
          (Holds env aliases conditions loop outer) := by
        intro session
        have asked := Simulates.same (Flow.askSource_respects
          (Session.placed_traceable ⟨aliases, conditions, loop :: outer, blocks⟩).toCommandable env .next
          qualifier type loop.name) session
        rw [advance_eq]
        simp only [external]
        exact asked.weaken (fun _ _ _ ended => ended) fun _ same => same ▸ held blocks
      refine Simulates.bind asks fun answer other after reached => ?_
      obtain ⟨rfl, rfl⟩ := reached
      split
      · exact ih _
      · exact Simulates.pure ⟨rfl, rfl, held blocks⟩

theorem Replayed.congr {other : Loop} {answer answer' : Answer} {after : Control}
    (replayed : Replayed env aliases conditions other outer answer answer' after)
    (same : Flow.closeLoop env other = Flow.closeLoop env loop) :
    Replayed env aliases conditions loop outer answer answer' after :=
  ⟨replayed.1, replayed.2.1, replayed.2.2.congr same⟩

theorem replay_simulates (runs : BodyRuns env depth lines body aliases conditions outer) (fresh : Fresh env loop)
    (reading : loop.mode = .reading) :
    Simulates ⟨aliases, conditions, loop.replaying lines :: outer, blocks⟩
      (Flow.replay env (Interpreter.runLine env (Interpreter.execLine env depth)) outer.length conditions.length
        lines (Flow.budget env loop) 1)
      (overLoop env loop (reported env body))
      (Replayed env aliases conditions loop outer) (Holds env aliases conditions loop outer) := by
  have closes : Flow.closeLoop env (loop.replaying lines) = Flow.closeLoop env loop := rfl
  have unaliased : (loop.replaying lines).aliases = [] := fresh.unaliased
  have replays {program : Run σ Answer}
      (given : Simulates ⟨aliases, conditions, loop.replaying lines :: outer, blocks⟩
        (Flow.replay env (Interpreter.runLine env (Interpreter.execLine env depth)) outer.length conditions.length
          lines (Flow.budget env loop) 1) program
        (Replayed env aliases conditions (loop.replaying lines) outer)
        (Holds env aliases conditions (loop.replaying lines) outer)) :
      Simulates ⟨aliases, conditions, loop.replaying lines :: outer, blocks⟩
        (Flow.replay env (Interpreter.runLine env (Interpreter.execLine env depth)) outer.length conditions.length
          lines (Flow.budget env loop) 1) program
        (Replayed env aliases conditions loop outer) (Holds env aliases conditions loop outer) :=
    given.weaken (fun _ _ _ replayed => replayed.congr closes) fun _ held => held.congr closes
  unfold overLoop
  split
  · rename_i qualifier type external
    have passes : Flow.budget env loop = env.passes := by simp only [Flow.budget, external]
    refine replays ?_
    rw [passes]
    exact replay_source runs rfl unaliased external env.passes 1
  · rename_i listed
    refine replays ?_
    rw [fresh.enough reading listed]
    exact replay_elements runs rfl unaliased listed 1

theorem finishLoop_simulates {after : Control} (held : Holds env aliases conditions loop outer after) (number : Nat) :
    Simulates after (Flow.finishLoop env outer.length number)
      (do
        Run.modifyFrame ({ · with line := number })
        Flow.closeLoop env loop)
      (fun _ _ last => last = { after with loops := outer })
      (fun last => last = { after with loops := outer }) := by
  obtain ⟨now, loops, closes⟩ := held.loops
  intro session
  let last : Control := { after with loops := outer }
  have top : (session.placed after).frame.loopAt? outer.length = some now := Frame.loopAt?_innermost loops
  have innermost : (session.placed after).noteEnd now = session.placed after := by
    simp [Session.noteEnd, show (session.placed after).frame.loops = now :: outer from loops]
  have flatStarts : Flow.finishLoop env outer.length number (session.placed after) =
      Flow.closeLoop env now
        { session.placed after with
          frame := { (session.placed after).frame with line := number, loops := after.loops.drop 1 } } := by
    rw [Flow.finishLoop_found top, innermost]
    rfl
  have popped : { session.placed after with
        frame := { (session.placed after).frame with line := number, loops := after.loops.drop 1 } } =
      Session.placed { session with frame := { session.frame with line := number } } last := by
    rw [loops]
    rfl
  rw [flatStarts, popped, closes]
  have released := Simulates.same (Flow.closeLoop_respects (Session.placed_notable last) env loop)
  exact (released { session with frame := { session.frame with line := number } }).weaken
    (fun _ _ _ ended => ended.2) fun _ same => same

structure Closed (aliases : AliasTable) (conditions : List Branch) (outer : List Loop) (after : Control) : Prop where
  aliases : after.aliases = aliases
  conditions : conditions <:+ after.conditions
  loops : after.loops = outer

theorem endLoop_simulates (runs : BodyRuns env depth lines body aliases conditions outer) (fresh : Fresh env loop)
    (blocks : Flow.BlockCount) {number : Nat} (session : Session σ) (atEnd : session.frame.line = number) :
    Agree
      (fun _ _ after => after.conditions = conditions ∧ Closed aliases conditions outer after)
      (Closed aliases conditions outer)
      (Flow.endLoop env (Interpreter.runLine env (Interpreter.execLine env depth))
        (session.placed ⟨aliases, conditions, loop.read lines :: outer, blocks⟩))
      (runLoop env loop number body session) := by
  let start : Control := ⟨aliases, conditions, loop.read lines :: outer, blocks⟩
  have stays : Holds env aliases conditions loop outer start := ⟨rfl, List.suffix_refl _, _, rfl, rfl⟩
  have wholeBody : (loop.read lines).lines = lines := by simp [Loop.read, fresh.lines]
  -- the passes, then the release of the source whatever became of them
  have passes : Simulates start
      (if loop.mode = .reading then do
        Run.modifyFrame (·.modifyLoop ({ · with mode := .replaying }))
        Run.deeper 5 (Flow.replay env (Interpreter.runLine env (Interpreter.execLine env depth)) outer.length
          conditions.length (loop.read lines).lines (Flow.budget env loop) 1)
      else pure .noMore)
      (if loop.mode = .reading then Run.deeper 5 (overLoop env loop (reported env body)) else pure .noMore)
      (Replayed env aliases conditions loop outer) (Holds env aliases conditions loop outer) := by
    split
    · rename_i reading
      refine Simulates.silent ⟨aliases, conditions, loop.replaying lines :: outer, blocks⟩ (fun _ => rfl) ?_
      rw [wholeBody]
      exact Simulates.deeper (replay_simulates runs fresh reading) ⟨rfl, List.suffix_refl _, _, rfl, rfl⟩
    · exact Simulates.pure ⟨rfl, rfl, stays⟩
  have closed {after last : Control} (held : Holds env aliases conditions loop outer after)
      (popped : last = { after with loops := outer }) : Closed aliases conditions outer last := by
    subst popped
    exact ⟨held.aliases, held.conditions, rfl⟩
  have released := Simulates.always passes
    (fun answer other after replayed => (finishLoop_simulates replayed.2.2 number).weaken
      (fun _ _ last popped => (⟨replayed.1, popped ▸ replayed.2.1, closed replayed.2.2 popped⟩ :
        answer = other ∧ last.conditions = conditions ∧ Closed aliases conditions outer last))
      fun _ popped => closed replayed.2.2 popped)
    (fun after held => (finishLoop_simulates held number).weaken (fun _ _ _ popped => closed held popped)
      fun _ popped => closed held popped)
  subst atEnd
  refine Simulates.bind released (fun answer other after reached => ?_) session
  obtain ⟨rfl, same, gone⟩ := reached
  refine (Simulates.same ?_).weaken (fun _ _ _ ended => ?_) fun _ stays => ?_
  · refine Run.Respects.guard (answer = .notFound) _ ?_
    split
    · exact Run.Respects.fail _
    · exact Run.Respects.pure _
  · rw [ended.2]
    exact ⟨same, gone⟩
  · rw [stays]
    exact gone

end Structured

end CommandScript
