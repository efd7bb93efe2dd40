import CommandScript.Proofs.Branches.Aging
import CommandScript.Proofs.Scoping.Watching

/-! Runs that are recorded. After each of its steps a recorded run notes the conditional stacks of all open
scripts, and it notes when a command is about to be run and when a further branch of a chain is started. Only
the programs that run further lines are taken apart; all others are one step. Recorded programs mirror the
programs themselves if they come to the same and from one note to the next at most one stack is moved, as a line
of a chain or the end of a block moves it. -/

namespace CommandScript

variable {σ α β : Type}

def Session.branches (session : Session σ) : List (List Branch) :=
  session.frame.conditions :: session.callers.map (·.conditions)

inductive Occasion where
  | step
  | command
  /-- A line has started a further branch of the innermost chain. -/
  | branch
  deriving DecidableEq, Repr

structure Sight where
  occasion : Occasion
  branches : List (List Branch)
  deriving DecidableEq, Repr

/-- From one time to the next, the stack of the running script moves, or a script is entered or left. -/
inductive Transition : List (List Branch) → List (List Branch) → Prop
  | shifts {before after : List Branch} (callers : List (List Branch)) : Flow.Shift before after →
      Transition (before :: callers) (after :: callers)
  | enters (branches : List (List Branch)) : Transition branches ([] :: branches)
  | leaves (stack : List Branch) (callers : List (List Branch)) : Transition (stack :: callers) callers

/-- The entry at a place of the stack of a script; scripts and entries are counted from the outermost. -/
def Sight.branchAt? (file place : Nat) (sight : Sight) : Option Branch :=
  sight.branches.reverse[file]?.bind (·.reverse[place]?)

/-- All stacks are layered, and a command is run only where all entries execute. -/
structure Sight.IsLayered (sight : Sight) : Prop where
  branches : ∀ stack ∈ sight.branches, Flow.Layered stack
  command : sight.occasion = .command → ∀ stack ∈ sight.branches.head?, ∀ branch ∈ stack, branch.isExecuting

/-- A note comes right after one with these stacks: they have moved once, and where a further branch was started, the
innermost chain of the running script has got to it. -/
structure Sight.Succeeds (sight : Sight) (before : List (List Branch)) : Prop where
  moves : Transition before sight.branches
  turns : sight.occasion = .branch →
    ∃ old new callers, before = old :: callers ∧ sight.branches = new :: callers ∧ Flow.Turned old new

namespace Transition

variable {before after : List (List Branch)}

theorem layered (moves : Transition before after) (layered : ∀ stack ∈ before, Flow.Layered stack) :
    ∀ stack ∈ after, Flow.Layered stack := by
  cases moves with
  | shifts callers shift =>
      rw [List.forall_mem_cons] at layered ⊢
      exact ⟨shift.layered layered.1, layered.2⟩
  | enters => exact List.forall_mem_cons.mpr ⟨.nil, layered⟩
  | leaves stack callers => exact (List.forall_mem_cons.mp layered).2

theorem ages {earlier later : Sight} (moves : Transition earlier.branches later.branches) {file place : Nat}
    {old new : Branch} (was : earlier.branchAt? file place = some old)
    (is : later.branchAt? file place = some new) : old.phase ≤ new.phase := by
  obtain ⟨stack, open', was⟩ := Option.bind_eq_some_iff.mp was
  obtain ⟨stack', open'', is⟩ := Option.bind_eq_some_iff.mp is
  have unmoved (same : stack = stack') : old.phase ≤ new.phase := by
    subst same
    cases was.symm.trans is
    exact Nat.le_refl _
  generalize earlier.branches = before at moves open'
  generalize later.branches = after at moves open''
  cases moves with
  | shifts callers shift =>
      rcases Flow.reverse_cons_cases open' open'' with same | ⟨rfl, rfl⟩
      · exact unmoved same
      · exact shift.ages was is
  | enters branches =>
      rw [List.reverse_cons, List.getElem?_append_left (List.getElem?_eq_some_iff.mp open').1] at open''
      exact unmoved (Option.some.inj (open'.symm.trans open''))
  | leaves stack callers =>
      rw [List.reverse_cons, List.getElem?_append_left (List.getElem?_eq_some_iff.mp open'').1] at open'
      exact unmoved (Option.some.inj (open'.symm.trans open''))

end Transition

abbrev Recorded (σ : Type) := EStateM Exit (Session σ × List Sight)

namespace Recorded

def current : Recorded σ (Session σ) := fun state => .ok state.1 state

def note (occasion : Occasion) : Recorded σ Unit :=
  modify fun (session, trail) => (session, ⟨occasion, session.branches⟩ :: trail)

/-- A program as one step; its value tells what the note is about. -/
def stepAs (occasion : α → Occasion) (program : Run σ α) : Recorded σ α := fun (session, trail) =>
  match program session with
  | .ok value after => .ok value (after, ⟨occasion value, after.branches⟩ :: trail)
  | .error exit after => .error exit (after, ⟨.step, after.branches⟩ :: trail)

def step (program : Run σ α) : Recorded σ α := stepAs (fun _ => .step) program

def attempt (program : Recorded σ α) : Recorded σ (Except Exit α) := fun state =>
  match program state with
  | .ok value after => .ok (.ok value) after
  | .error exit after => .ok (.error exit) after

def always (program : Recorded σ α) (after : Recorded σ Unit) : Recorded σ α := do
  let result ← attempt program
  after
  match result with
  | .ok value => return value
  | .error exit => throw exit

def onError (program : Recorded σ α) (handler : ScriptError → Recorded σ α) : Recorded σ α := do
  match ← attempt program with
  | .ok value => return value
  | .error (.error error) => handler error
  | .error exit => throw exit

def deeper (calls : Nat) (program : Recorded σ α) : Recorded σ α := do
  let depth := (← current).depth
  if Run.callLimit < depth + calls then throw .exhausted
  step (modify ({ · with depth := depth + calls }))
  always program (step (modify ({ · with depth })))

section Loops

variable (env : Env σ) (runLine : Text → Recorded σ Unit)

def replayLines (conditions : Nat) : List BodyLine → Recorded σ Unit
  | [] => pure ()
  | line :: rest => do
    step (Run.modifyFrame ({ · with line := line.number }))
    onError (runLine line.text) fun error => do
      step (Run.modifyFrame (·.trimConditions conditions))
      step (Report.add env error)
      throw (.error { cause := .flow .body })
    replayLines conditions rest

def replay (depth conditions : Nat) (lines : List BodyLine) : Nat → Nat → Recorded σ Answer
  | 0, _ => throw .exhausted
  | passes + 1, pass => do
    step (Run.put "for_index" (Text.ofNat pass))
    replayLines env runLine conditions lines
    if ((← current).frame.loopAt? depth).any (·.mode = .leaving) then return .noMore
    let answer ← step (Flow.advance env depth)
    if answer = .more then replay depth conditions lines passes (pass + 1) else return answer

def endLoop : Recorded σ Unit := do
  let frame := (← current).frame
  match frame.loops with
  | [] => return
  | loop :: outer =>
    let answer ← always
      (if loop.mode = .reading then do
        step (Run.modifyFrame (·.modifyLoop ({ · with mode := .replaying })))
        deeper 5 (replay env runLine outer.length frame.conditions.length loop.lines (Flow.budget env loop) 1)
      else pure .noMore)
      (step (Flow.finishLoop env outer.length frame.line))
    step do
      if answer = .notFound then Run.fail (.flow .nextUndefined)
      if answer = .failed then
        Run.fail (.flow (.nextFailed (match loop.source with | .external _ type => type | _ => [])))

end Loops

section Lines

open Interpreter

variable (env : Env σ) (exec : Text → Recorded σ Unit)

def runLine (line : Text) : Recorded σ Unit := do
  step (Run.modifyFrame ({ · with statement := line }))
  step (emit env "before_line" [line])
  onError (exec line) fun error => step do
    let error := locate (← get).frame line error
    emit env "on_error" [error.kind.label]
    throw (.error error)
  step (emit env "after_line" [line])

def collect (line : Text) : Recorded σ Unit := do
  let frame := (← current).frame
  let (blocks, result) := frame.blocks.track line
  step (Run.modifyFrame ({ · with blocks }))
  match result with
  | .error error => throw (.error { cause := .flow error })
  | .ok true => endLoop env (runLine env exec)
  | .ok false =>
    step (Run.modifyFrame (·.modifyLoop fun loop => { loop with lines := loop.lines ++ [⟨line, frame.line⟩] }))

def runScriptLine (text : Text) (number : Nat) : Recorded σ Bool := do
  step (Run.modifyFrame ({ · with line := number }))
  match ← attempt (runLine env exec text) with
  | .ok () => return true
  | .error .returned =>
    step (setConditions [])
    step (Flow.abandonAll env)
    return false
  | .error (.error error) =>
    step (Report.add env error)
    return false
  | .error exit => throw exit

def runFolded (text : Text) (number : Nat) : Recorded σ Bool :=
  match Lines.deliver text number with
  | .line text number :: _ => runScriptLine env exec text number
  | _ => return true

def runScript : Nat → Reader → Option Lines.Open → Nat → Recorded σ Unit
  | 0, _, _, _ => throw .exhausted
  | bound + 1, reader, part, number => do
    let (raw, reader) ← step (Run.ofFault (reader.nextLine (← current).files))
    match raw, part with
    | none, none => return
    | none, some part => if ← runFolded env exec part.text number then runScript bound reader none number
    | some raw, part =>
      let (part, follows, warns) := Lines.extend part raw
      if warns then step (Run.report Lines.warningText)
      if follows then runScript bound reader (some part) (number + 1)
      else if ← runFolded env exec part.text (number + 1) then runScript bound reader none (number + 1)

def runOpened (place : Location) : Recorded σ Unit := do
  runScript env exec env.passes { place } none 0
  step ((← current).frame.unclosedBlocks.forM fun problem => Run.report ("parse: " ++ problem))
  step (Flow.abandonAll env)

def runBlock (block : Text) : Recorded σ Scope := do
  step (modify fun session => { session with store := session.store.openPending })
  let result ← attempt (deeper 4 (exec block))
  let (scope, store) := (← current).store.closePending
  step (modify ({ · with store }))
  match result with
  | .ok () => return scope
  | .error exit => throw exit

def parseFile (target : ScriptTarget) : Recorded σ Unit := do
  let caller := (← current).frame
  let path := Path.resolveScript env.home target.path (caller.path.map Path.directory) caller.relativePaths
  step (FileArguments.checkPath path)
  let place ← step (Run.ofExcept
    (fun error : OpenError => .error { cause := .command (.cannotParse path error.text) })
    ((← current).files.locate path))
  let scope ←
    match target.block with
    | some block => if block.isEmpty then pure [] else runBlock exec block
    | none => pure []
  deeper 5 do
    step (enterFrame { path := some path } scope)
    always (runOpened env exec place) (step leaveFrame)

def parseString (rest : Text) : Recorded σ Unit := do
  step (Command.require rest "parse_string" "argument")
  let stored ← step (Run.readVariable rest)
  deeper 3 (exec (Text.stripQuotes (stored.getD rest)))

/-- The command of a line that runs further lines, if it is one. -/
def opener? (line : Text) : Option Command :=
  if Flow.isForeach line ∨ Flow.isEndfor line then none
  else (commandOf? line).filter fun command => command = .parse ∨ command = .parseString

def runStatement (line : Text) : Recorded σ Unit := do
  note .command
  let rest := Text.trim (Text.cutOrAll ' ' line).2
  match opener? line with
  | some .parse => parseFile env exec (← step (Run.ofFailure (ScriptTarget.read (← current).store.get? rest)))
  | some .parseString => parseString exec rest
  -- all other statements run no lines, and are one step
  | _ => step (Interpreter.runStatement env (fun _ => pure ()) line)

def statement (text : Text) : Recorded σ Unit := do
  let line := Text.trim (Text.stripComment text)
  if line.isEmpty then return
  step (Run.ofMalformed (Text.checkBalance line))
  let frame := (← current).frame
  if frame.loops.head?.any Loop.isCollecting then collect env exec line
  else
    let line := if keepsAliases line then line else AliasTable.apply frame.aliasTables line
    let leaving := frame.loops.head?.any (·.mode = .leaving)
    let occasion := fun passed => if passed && Flow.startsBranch line then Occasion.branch else .step
    if ← stepAs occasion (passConditions env leaving line) then return
    if !leaving then runStatement env exec line

def execLine : Nat → Text → Recorded σ Unit
  | 0, _ => throw .exhausted
  | depth + 1, line => do
    (← step (Run.ofMalformed (Text.splitStatements line))).forM (statement env (execLine depth))

def parseLine (line : Text) : Recorded σ Bool := do
  if (← current).stopped then return false
  step (modify (·.modifyRoot fun root => { root with line := root.line + 1 }))
  match ← attempt (deeper 8 (runLine env exec line)) with
  | .ok () => return true
  | .error (.stopped code) =>
    step (modify (·.stop code))
    return false
  | .error (.error error) =>
    step (Report.add env error)
    return false
  | .error exit => throw exit

def runLogical (good : Bool) : List Lines.Event → Recorded σ Bool
  | [] => return good
  | .asked _ :: rest => runLogical good rest
  | .warning :: rest => do
    step (Run.report Lines.warningText)
    runLogical good rest
  | .line text _ :: rest => do
    let good := (← parseLine env exec text) && good
    if (← current).stopped then return good else runLogical good rest

def serve : Request → Recorded σ Unit
  | .line text => do let _ ← parseLine env exec text
  | .text text => do let _ ← runLogical env exec true (Lines.fold (Lines.ofText text))
  | .file target => parseFile env exec target

def answers : List Request → Recorded σ (List (Except Exit Unit))
  | [] => return []
  | request :: rest => do
    let answer ← attempt (serve env exec request)
    return answer :: (← answers rest)

end Lines

end Recorded

/-- The notes end with these stacks, all of them are layered, and each of them is one move from the one before. -/
structure Faithful (trail : List Sight) (branches : List (List Branch)) : Prop where
  latest : trail.head?.map Sight.branches = some branches
  chain : trail.IsChain fun later earlier => later.Succeeds earlier.branches
  layered : ∀ sight ∈ trail, sight.IsLayered

namespace Faithful

variable {trail : List Sight} {before after : List (List Branch)}

theorem current (faithful : Faithful trail before) : ∀ stack ∈ before, Flow.Layered stack := by
  obtain ⟨sight, latest, rfl⟩ := Option.map_eq_some_iff.mp faithful.latest
  exact (faithful.layered sight (List.mem_of_mem_head? latest)).branches

theorem extend (faithful : Faithful trail before) {sight : Sight} (succeeds : sight.Succeeds before)
    (command : sight.occasion = .command → ∀ stack ∈ sight.branches.head?, ∀ branch ∈ stack, branch.isExecuting) :
    Faithful (sight :: trail) sight.branches := by
  have layered : sight.IsLayered := ⟨succeeds.moves.layered faithful.current, command⟩
  refine ⟨rfl, ?_, List.forall_mem_cons.mpr ⟨layered, faithful.layered⟩⟩
  obtain ⟨sight, latest, rfl⟩ := Option.map_eq_some_iff.mp faithful.latest
  obtain ⟨rest, rfl⟩ := List.head?_eq_some_iff.mp latest
  exact List.isChain_cons_cons.mpr ⟨succeeds, faithful.chain⟩

theorem extendStep (faithful : Faithful trail before) (moves : Transition before after) :
    Faithful (⟨.step, after⟩ :: trail) after := faithful.extend ⟨moves, nofun⟩ nofun

end Faithful

/-- A recorded result is the result, and its notes are added to those there were. -/
inductive Mirrored (trail : List Sight) :
    EStateM.Result Exit (Session σ × List Sight) α → EStateM.Result Exit (Session σ) α → Prop
  | ok {value : α} {after : Session σ} {later : List Sight} : Faithful later after.branches → trail <:+ later →
      Mirrored trail (.ok value (after, later)) (.ok value after)
  | error {exit : Exit} {after : Session σ} {later : List Sight} : Faithful later after.branches → trail <:+ later →
      Mirrored trail (.error exit (after, later)) (.error exit after)

/-- From a session, a recorded program comes to the same as a program. -/
def MirrorsAt (recorded : Recorded σ α) (program : Run σ α) (session : Session σ) : Prop :=
  ∀ ⦃trail⦄, Faithful trail session.branches → Mirrored trail (recorded (session, trail)) (program session)

def Mirrors (recorded : Recorded σ α) (program : Run σ α) : Prop := ∀ session, MirrorsAt recorded program session

/-- A program that is one step moves the stacks once, or not at all; it is not about a command. -/
def IsStepAs (occasion : α → Occasion) (program : Run σ α) (session : Session σ) : Prop :=
  Run.Meets
    (fun value after => occasion value ≠ .command ∧ Sight.Succeeds ⟨occasion value, after.branches⟩ session.branches)
    (fun _ after => Transition session.branches after.branches) program session

namespace MirrorsAt

variable {session : Session σ} {recorded : Recorded σ α} {program : Run σ α}

theorem pure (value : α) : MirrorsAt (pure value) (pure value) session :=
  fun _ faithful => .ok faithful (List.suffix_refl _)

theorem throw (exit : Exit) : MirrorsAt (throw exit : Recorded σ α) (throw exit) session :=
  fun _ faithful => .error faithful (List.suffix_refl _)

theorem of_layered (mirrors : (∀ stack ∈ session.branches, Flow.Layered stack) → MirrorsAt recorded program session) :
    MirrorsAt recorded program session := fun _ faithful => mirrors faithful.current faithful

theorem stepAs {occasion : α → Occasion} (steps : IsStepAs occasion program session) :
    MirrorsAt (Recorded.stepAs occasion program) program session := by
  intro trail faithful
  unfold IsStepAs Run.Meets at steps
  unfold Recorded.stepAs
  dsimp only
  generalize program session = result at steps ⊢
  cases steps with
  | ok ended => exact .ok (faithful.extend ended.2 fun command => absurd command ended.1) (List.suffix_cons _ _)
  | error moves => exact .error (faithful.extendStep moves) (List.suffix_cons _ _)

theorem step (steps : Run.Meets (fun _ after => Transition session.branches after.branches)
      (fun _ after => Transition session.branches after.branches) program session) :
    MirrorsAt (Recorded.step program) program session :=
  stepAs (steps.mono (fun _ _ moves => ⟨nofun, moves, nofun⟩) fun _ _ moves => moves)

theorem bindEnded {next : α → Recorded σ β} {next' : α → Run σ β} (first : MirrorsAt recorded program session)
    (second : ∀ value after, program session = .ok value after → MirrorsAt (next value) (next' value) after) :
    MirrorsAt (recorded >>= next) (program >>= next') session := by
  intro trail faithful
  have mirrored := first faithful
  change Mirrored trail (EStateM.bind recorded next (session, trail)) (EStateM.bind program next' session)
  unfold EStateM.bind
  generalize recorded (session, trail) = result at mirrored ⊢
  cases ran : program session with
  | ok value after =>
      rw [ran] at mirrored
      cases mirrored with
      | ok faithful grown =>
          have followed := second value after ran faithful
          dsimp only
          generalize next value _ = ended at followed ⊢
          generalize next' value after = ended' at followed ⊢
          cases followed with
          | ok faithful grown' => exact .ok faithful (grown.trans grown')
          | error faithful grown' => exact .error faithful (grown.trans grown')
  | error exit after =>
      rw [ran] at mirrored
      cases mirrored with
      | error faithful grown => exact .error faithful grown

theorem read {next : Session σ → Recorded σ α} {next' : Session σ → Run σ α}
    (second : MirrorsAt (next session) (next' session) session) :
    MirrorsAt (Recorded.current >>= next) (get >>= next') session := fun _ faithful => second faithful

theorem note (executes : ∀ branch ∈ session.frame.conditions, branch.isExecuting)
    (second : MirrorsAt recorded program session) :
    MirrorsAt (do Recorded.note .command; recorded) program session := by
  intro trail faithful
  have noted : Faithful (⟨.command, session.branches⟩ :: trail) session.branches := by
    refine faithful.extend ⟨.shifts _ (.refl _), nofun⟩ fun _ stack head => ?_
    cases head
    exact executes
  have mirrored := second noted
  change Mirrored trail (recorded (session, _)) (program session)
  generalize recorded (session, _) = result at mirrored ⊢
  generalize program session = result' at mirrored ⊢
  cases mirrored with
  | ok faithful grown => exact .ok faithful ((List.suffix_cons _ _).trans grown)
  | error faithful grown => exact .error faithful ((List.suffix_cons _ _).trans grown)

theorem attempt (inner : MirrorsAt recorded program session) :
    MirrorsAt (Recorded.attempt recorded) (Run.attempt program) session := by
  intro trail faithful
  have mirrored := inner faithful
  unfold Recorded.attempt Run.attempt
  generalize recorded (session, trail) = result at mirrored ⊢
  generalize program session = result' at mirrored ⊢
  cases mirrored with
  | ok faithful grown => exact .ok faithful grown
  | error faithful grown => exact .ok faithful grown

end MirrorsAt

namespace Mirrors

variable {recorded : Recorded σ α} {program : Run σ α}

theorem pure (value : α) : Mirrors (pure value : Recorded σ α) (pure value) := fun _ => .pure value

theorem throw (exit : Exit) : Mirrors (throw exit : Recorded σ α) (throw exit) := fun _ => .throw exit

theorem bind {next : α → Recorded σ β} {next' : α → Run σ β} (first : Mirrors recorded program)
    (second : ∀ value, Mirrors (next value) (next' value)) : Mirrors (recorded >>= next) (program >>= next') :=
  fun session => (first session).bindEnded fun value after _ => second value after

theorem read {next : Session σ → Recorded σ α} {next' : Session σ → Run σ α}
    (second : ∀ session, Mirrors (next session) (next' session)) :
    Mirrors (Recorded.current >>= next) (get >>= next') := fun session => .read (second session session)

theorem change {f : Session σ → Session σ} (moves : ∀ session, Transition session.branches (f session).branches) :
    Mirrors (Recorded.step (modify f)) (modify f : Run σ Unit) := fun session => .step (.ok (moves session))

theorem attempt (inner : Mirrors recorded program) : Mirrors (Recorded.attempt recorded) (Run.attempt program) :=
  fun session => (inner session).attempt

theorem always {after : Recorded σ Unit} {after' : Run σ Unit} (first : Mirrors recorded program)
    (second : Mirrors after after') : Mirrors (Recorded.always recorded after) (Run.always program after') := by
  refine bind first.attempt fun result => bind second fun _ => ?_
  cases result with
  | ok value => exact pure value
  | error exit => exact throw exit

theorem onError {handler : ScriptError → Recorded σ α} {handler' : ScriptError → Run σ α}
    (inner : Mirrors recorded program) (handled : ∀ error, Mirrors (handler error) (handler' error)) :
    Mirrors (Recorded.onError recorded handler) (Run.onError program handler') := by
  refine bind inner.attempt fun result => ?_
  cases result with
  | ok value => exact pure value
  | error exit =>
      cases exit with
      | error error => exact handled error
      | _ => exact throw _

theorem forM {items : List β} {one : β → Recorded σ PUnit} {one' : β → Run σ PUnit}
    (each : ∀ item, Mirrors (one item) (one' item)) : Mirrors (items.forM one) (items.forM one') := by
  induction items with
  | nil => exact pure _
  | cons item rest ih => exact bind (each item) fun _ => ih

end Mirrors

end CommandScript
