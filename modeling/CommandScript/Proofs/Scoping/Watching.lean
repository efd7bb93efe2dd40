import CommandScript.Proofs.Scoping.Following

/-! Runs that are watched. A session answers requests one after another: lines, texts and script files. A watched run
stops at a statement that is refused when it is due, and after one that leaves the session in a way that is objected to;
that it comes to the same as the run itself says that the run has no such statement. -/

namespace CommandScript

variable {σ : Type}

open Run

namespace Interpreter

def parseLineBy (env : Env σ) (exec : Text → Run σ Unit) (line : Text) : Run σ Bool := do
  if (← get).stopped then return false
  modify (·.modifyRoot fun root => { root with line := root.line + 1 })
  match ← Run.attempt (Run.deeper 8 (runLine env exec line)) with
  | .ok () => return true
  | .error (.stopped code) =>
    modify (·.stop code)
    return false
  | .error (.error error) =>
    Report.add env error
    return false
  | .error exit => throw exit

def runLogicalBy (env : Env σ) (exec : Text → Run σ Unit) (good : Bool) : List Lines.Event → Run σ Bool
  | [] => return good
  | .asked _ :: rest => runLogicalBy env exec good rest
  | .warning :: rest => do
    Run.report Lines.warningText
    runLogicalBy env exec good rest
  | .line text _ :: rest => do
    let good := (← parseLineBy env exec text) && good
    if (← get).stopped then return good else runLogicalBy env exec good rest

/-- What a session can be asked to run: a line, a text given as a whole, or a script file with its inline block. -/
inductive Request where
  | line (text : Text)
  | text (text : Text)
  | file (target : ScriptTarget)
  deriving DecidableEq, Repr

def serveBy (env : Env σ) (exec : Text → Run σ Unit) : Request → Run σ Unit
  | .line text => do let _ ← parseLineBy env exec text
  | .text text => do let _ ← runLogicalBy env exec true (Lines.fold (Lines.ofText text))
  | .file target => parseFile env exec target

def answersBy (env : Env σ) (exec : Text → Run σ Unit) : List Request → Run σ (List (Except Exit Unit))
  | [] => return []
  | request :: rest => do
    let answer ← Run.attempt (serveBy env exec request)
    return answer :: (← answersBy env exec rest)

def serve (env : Env σ) (depth : Nat) : Request → Run σ Unit
  | .line text => do let _ ← parseLine env depth text
  | .text text => do let _ ← runText env depth text
  | .file target => parseFile env (execLine env depth) target

def answers (env : Env σ) (depth : Nat) : List Request → Run σ (List (Except Exit Unit))
  | [] => return []
  | request :: rest => do
    let answer ← Run.attempt (serve env depth request)
    return answer :: (← answers env depth rest)

theorem runLogicalBy_execLine (env : Env σ) (depth : Nat) (good : Bool) (events : List Lines.Event) :
    runLogicalBy env (execLine env depth) good events = runLogical env depth good events := by
  induction events generalizing good with
  | nil => rfl
  | cons event rest ih =>
      cases event with
      | asked _ => exact ih good
      | warning => simp only [runLogicalBy, runLogical, ih]
      | line text _ =>
          simp only [runLogicalBy, runLogical, ih]
          rfl

theorem answersBy_execLine (env : Env σ) (depth : Nat) (requests : List Request) :
    answersBy env (execLine env depth) requests = answers env depth requests := by
  have served (request : Request) : serveBy env (execLine env depth) request = serve env depth request := by
    cases request with
    | line text => rfl
    | text text => simp only [serveBy, serve, runText, runLogicalBy_execLine]
    | file target => rfl
  induction requests with
  | nil => rfl
  | cons request rest ih => simp only [answersBy, answers, ih, served]

/-- Leaves if there is an objection to the way from one session to this one. -/
def objecting (objects : Session σ → Session σ → Bool) (before : Session σ) : Run σ Unit := do
  if objects before (← get) then throw .exhausted

/-- Runs a line without events, and stops at a statement that is refused when it is due, or objected to when it has
ended. -/
def watched (env : Env σ) (refuses : Session σ → Text → Bool) (objects : Session σ → Session σ → Bool) :
    Nat → Text → Run σ Unit
  | 0, _ => throw .exhausted
  | depth + 1, line => do
    (← Run.ofMalformed (Text.splitStatements line)).forM fun text => do
      let session ← get
      if (due? session text).any (refuses session) then throw .exhausted
      else Run.always (statement env (watched env refuses objects depth) text) (objecting objects session)

end Interpreter

open Interpreter

/-- A program that keeps all invariants of a family, and an objection that there is none to. -/
theorem alike_objecting {ι : Type} {Inv : ι → Session σ → Prop} {program other : Run σ Unit} {session : Session σ}
    (alike : ∀ index, Inv index session → Alike (Inv index) program other session)
    {objects objects' : Session σ → Session σ → Bool}
    (agrees : ∀ after, (∀ index, Inv index session → Inv index after) → objects' session after = objects session after)
    {index : ι} (holds : Inv index session) :
    Alike (Inv index) (Run.always program (objecting objects session)) (Run.always other (objecting objects' session))
      session := by
  refine (alike index holds).attempt.bindEnded fun result after ended still => ?_
  have kept (index : ι) (holds : Inv index session) : Inv index after := by
    have kept := (alike index holds).attempt.kept
    rw [ended] at kept
    cases kept with
    | ok still => exact still
  have objected : Alike (Inv index) (objecting objects session) (objecting objects' session) after := by
    refine Alike.read ?_
    rw [agrees after kept]
    split
    · exact .of_keeps (Keeps.throw trivial) still
    · exact .of_keeps (Keeps.pure _) still
  refine objected.bind fun _ => Keeps.follows ?_
  cases result with
  | ok value => exact Keeps.pure value
  | error exit => exact Keeps.throw trivial

/-- A watched run keeps invariants if each of them allows for what programs do to variables, as long as nothing
that is refused is done, and a script file that is run keeps them if its lines do; and there is nothing to
object to if statements that keep all of them are not objected to. -/
theorem watched_follows {ι : Type} {env : Env σ} {may shares : Text → Prop} {Inv : ι → Session σ → Prop}
    (allows : ∀ index, Allows env may shares (Inv index)) {refuses : Session σ → Text → Bool}
    {objects objects' : Session σ → Session σ → Bool}
    (agrees : ∀ before after index, Inv index before → (∀ index, Inv index before → Inv index after) →
      objects' before after = objects before after)
    (allowed : ∀ index session line, Inv index session → refuses session line = false →
      ∀ name, forced? line = some name → may name)
    (shared : ∀ session line, refuses session line = false → ∀ name, published? line = some name → shares name)
    (parses : ∀ exec exec', (∀ index text, Follows (Inv index) (exec text) (exec' text)) →
      ∀ index session line, Inv index session → refuses session line = false → commandOf? line = some .parse →
        ∀ target, Alike (Inv index) (parseFile env exec target) (parseFile env exec' target) session)
    (depth : Nat) (index : ι) (text : Text) :
    Follows (Inv index) (watched env refuses objects depth text) (watched env refuses objects' depth text) := by
  -- for all invariants at once: an inline block and a script file run their lines under other ones
  induction depth generalizing index text with
  | zero => exact (Keeps.throw trivial).follows
  | succ depth ih =>
      refine Follows.next (Keeps.ofMalformed _) fun texts => Follows.forM fun text session holds => Alike.read ?_
      split
      · exact .of_keeps (Keeps.throw trivial) holds
      rename_i passes
      refine alike_objecting (fun index holds => (allows index).states (ih index) holds fun line due => ?_)
        (fun after kept => agrees session after index holds kept) holds
      have free : refuses session line = false := by
        rw [due] at passes
        simpa using passes
      exact ⟨allowed index session line holds free, shared session line free,
        parses _ _ ih index session line holds free⟩

/-- An invariant that holds between the lines of a session: it bears what is done there besides running lines. -/
structure Persists (env : Env σ) (Inv : Session σ → Prop) : Prop where
  redepth (session : Session σ) (depth : Nat) : Inv session → Inv { session with depth }
  counts (session : Session σ) : Inv session → Inv (session.modifyRoot fun root => { root with line := root.line + 1 })
  stops (session : Session σ) (code : Int) : Inv session → Inv (session.stop code)
  reports (error : ScriptError) : Keeps Inv Exit.any (Report.add env error)
  warns (text : Text) : Keeps Inv Exit.any (Run.report text : Run σ Unit)

namespace Persists

variable {env : Env σ} {Inv : Session σ → Prop} (persists : Persists env Inv) {exec exec' : Text → Run σ Unit}
  (lines : ∀ text, Follows Inv (runLine env exec text) (runLine env exec' text))

include persists lines

theorem parsesLine (line : Text) : Follows Inv (parseLineBy env exec line) (parseLineBy env exec' line) := by
  refine Follows.read fun session => ?_
  split
  · exact (Keeps.pure _).follows
  refine Follows.next (Keeps.change persists.counts) fun _ => ?_
  have deeper : Follows Inv (Run.deeper 8 (runLine env exec line)) (Run.deeper 8 (runLine env exec' line)) :=
    fun session holds => Alike.deeper persists.redepth holds (lines line (persists.redepth session _ holds))
  refine Follows.bind deeper.attempt fun result => Keeps.follows ?_
  split
  · exact Keeps.pure _
  · exact Keeps.bind (Keeps.change fun session => persists.stops session _) fun _ => Keeps.pure _
  · exact Keeps.bind (persists.reports _) fun _ => Keeps.pure _
  · exact Keeps.throw trivial

theorem runsLogical (good : Bool) (events : List Lines.Event) :
    Follows Inv (runLogicalBy env exec good events) (runLogicalBy env exec' good events) := by
  induction events generalizing good with
  | nil => exact (Keeps.pure _).follows
  | cons event rest ih =>
      cases event with
      | asked _ => exact ih good
      | warning => exact Follows.next (persists.warns _) fun _ => ih good
      | line text number =>
          refine Follows.bind (persists.parsesLine lines text) fun answer => Follows.read fun session => ?_
          split
          · exact (Keeps.pure _).follows
          · exact ih _

theorem answersFollow (parses : ∀ target, Follows Inv (parseFile env exec target) (parseFile env exec' target))
    (requests : List Request) : Follows Inv (answersBy env exec requests) (answersBy env exec' requests) := by
  have serves (request : Request) : Follows Inv (serveBy env exec request) (serveBy env exec' request) := by
    cases request with
    | line text => exact Follows.bind (persists.parsesLine lines text) fun _ => (Keeps.pure _).follows
    | text text => exact Follows.bind (persists.runsLogical lines true _) fun _ => (Keeps.pure _).follows
    | file target => exact parses target
  induction requests with
  | nil => exact (Keeps.pure _).follows
  | cons request rest ih =>
      exact Follows.bind (serves request).attempt fun answer => Follows.bind ih fun _ => (Keeps.pure _).follows

end Persists

namespace Allows

variable {env : Env σ} {may shares : Text → Prop} {Inv : Session σ → Prop} (allows : Allows env may shares Inv)
  {exec exec' : Text → Run σ Unit} (lines : ∀ text, Follows Inv (exec text) (exec' text))

include allows

theorem persists : Persists env Inv where
  redepth _ _ holds := allows.quiet holds rfl rfl (List.Subset.refl _)
  counts session holds := by
    cases callers : session.callers.reverse with
    | nil =>
        simp only [Session.modifyRoot, callers]
        exact allows.quiet holds rfl rfl (List.Subset.refl _)
    | cons root rest =>
        simp only [Session.modifyRoot, callers]
        refine allows.quiet holds rfl ?_ (List.Subset.refl _)
        rw [show session.callers = (root :: rest).reverse from List.reverse_eq_iff.mp callers]
        simp [Frame.bound]
  stops session code holds := by
    have stopped : (session.stop code).store = session.store ∧ (session.stop code).callers = session.callers ∧
        (session.stop code).frame = session.frame := by
      unfold Session.stop Session.closeFiles Session.closeWrite Session.closePrint
      cases session.printFile <;> cases session.writeFile <;> exact ⟨rfl, rfl, rfl⟩
    refine allows.quiet holds stopped.1 (congrArg _ stopped.2.1) ?_
    rw [stopped.2.2]
    exact List.Subset.refl _
  reports := allows.reports
  warns _ := allows.fixed fun reference => Respects.report (Fixed.printable reference) _

include lines

theorem answersFollow (parses : ∀ target, Follows Inv (parseFile env exec target) (parseFile env exec' target))
    (requests : List Request) : Follows Inv (answersBy env exec requests) (answersBy env exec' requests) :=
  allows.persists.answersFollow (allows.runsLine lines) parses requests

end Allows

def Session.agrees (left right : Session Unit) : Bool :=
  left.buffers.isEmpty && right.buffers.isEmpty &&
    decide (left.store = right.store ∧ left.frame = right.frame ∧ left.callers = right.callers ∧
      left.depth = right.depth ∧ left.printFile = right.printFile ∧ left.writeFile = right.writeFile ∧
      left.stopped = right.stopped ∧ left.exitCode = right.exitCode ∧ left.files = right.files ∧
      left.output.toList = right.output.toList ∧ left.diagnostics.toList = right.diagnostics.toList ∧
      left.loopCount = right.loopCount ∧ left.history = right.history)

theorem Session.eq_of_agrees {left right : Session Unit} (agree : left.agrees right) : left = right := by
  simp only [agrees, Bool.and_eq_true, List.isEmpty_iff, decide_eq_true_eq, Array.toList_inj] at agree
  obtain ⟨⟨none, none'⟩, same⟩ := agree
  cases left
  cases right
  simp_all

def Run.agree {α : Type} [DecidableEq α] (program other : Run Unit α) (session : Session Unit) : Bool :=
  match program session, other session with
  | .ok answer after, .ok answer' after' => decide (answer = answer') && after.agrees after'
  | _, _ => false

theorem Run.eq_of_agree {α : Type} [DecidableEq α] {program other : Run Unit α} {session : Session Unit}
    (agree : program.agree other session) : program session = other session := by
  unfold Run.agree at agree
  split at agree
  · rename_i ended ended'
    simp only [Bool.and_eq_true, decide_eq_true_eq] at agree
    rw [ended, ended', agree.1, Session.eq_of_agrees agree.2]
  · cases agree

end CommandScript
