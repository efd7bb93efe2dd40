import CommandScript.Interpreter
import CommandScript.Schedule.Timers

/-! The executor: on every tick of its timer it takes at most one line from the hand-off and runs it.
A script that waits keeps the timers going, but no further line is taken. -/

namespace CommandScript

structure Handoff where
  line : Option Text := none
  closed : Bool := false
  deriving DecidableEq, Repr

namespace Handoff

def put (handoff : Handoff) (line : Text) : Handoff := { handoff with line := some line }

def poll (handoff : Handoff) : Option Text × Handoff := (handoff.line, { handoff with line := none })

def drained (handoff : Handoff) : Bool := handoff.closed && handoff.line.isNone

end Handoff

/-- A host together with the timers that go on while a script waits. -/
structure Paced (σ : Type) where
  host : σ
  timers : Timers Unit := {}
  period : Float := 100.0
  waiting : Bool := false

def HostM.paced {σ α : Type} (request : HostM σ α) : HostM (Paced σ) α := fun paced =>
  match request paced.host with
  | .ok value host => .ok value { paced with host }
  | .error raised host => .error raised { paced with host }

def Paced.asking {σ α : Type} (request : σ → α × σ) : Paced σ → α × Paced σ := fun paced =>
  let (reply, host) := request paced.host
  (reply, { paced with host })

namespace Services

variable {σ : Type}

def paced (services : Services σ) : Services (Paced σ) where
  dispatchers := services.dispatchers.map fun dispatcher => fun line => (dispatcher line).paced
  resolvers := services.resolvers.map fun resolver =>
    { resolve := fun name => (resolver.resolve name).paced
      call := fun name args => (resolver.call name args).paced }
  sources := services.sources.map fun (type, source) =>
    (type, fun verb qualifier name => Paced.asking (source verb qualifier name))
  hooks := services.hooks.map fun hook =>
    { event := hook.event, priority := hook.priority, handler := fun args => Paced.asking (hook.handler args) }

end Services

namespace Paced

variable {σ : Type}

def schedule (paced : Paced σ) (milliseconds : Float) : Paced σ :=
  { paced with timers := paced.timers.later milliseconds () }

def after (paced : Paced σ) (milliseconds : Int) : Except Fault Float :=
  (Pause.seconds milliseconds).map (paced.timers.now + ·)

/-- Lets the timers go on while a script waits. A tick in that time only sets the next one. -/
def wait (bound : Nat) (milliseconds : Int) : EStateM Fault (Paced σ) Unit := do
  let deadline ← MonadExcept.ofExcept ((← get).after milliseconds)
  modify ({ · with waiting := true })
  Timers.runUntil (return (← get).timers) (fun timers => modify ({ · with timers }))
    (fun _ => modify fun paced => paced.schedule paced.period) deadline bound
  modify ({ · with waiting := false })

end Paced

def Env.paced {σ : Type} (env : Env σ) (bound : Nat) : Env (Paced σ) where
  services := env.services.paced
  options := env.options
  wait := some (Paced.wait bound)
  clock := Paced.asking env.clock
  home := env.home
  shell := env.shell
  passes := env.passes

structure Executor (σ : Type) where
  session : Session (Paced σ)
  handoff : Handoff := {}
  stopFlag : Bool := false
  linesRun : Nat := 0
  finished : Bool := false
  announced : Nat := 0

namespace Executor

variable {σ : Type}

abbrev Job (σ : Type) := EStateM Exit (Executor σ)

def timers : Job σ (Timers Unit) := return (← get).session.host.timers

def modifyPaced (f : Paced σ → Paced σ) : Job σ Unit :=
  modify fun executor => { executor with session := { executor.session with host := f executor.session.host } }

def storeTimers (timers : Timers Unit) : Job σ Unit := modifyPaced ({ · with timers })

def schedule (milliseconds : Float) : Job σ Unit := modifyPaced (·.schedule milliseconds)

def shutdown : Job σ Unit := do
  if (← get).finished then return
  modify fun executor =>
    { executor with
      finished := true
      stopFlag := true
      session := executor.session.closeFiles
      announced := executor.announced + 1 }
  modifyPaced fun paced => { paced with timers := { paced.timers with running := false } }

/-- Runs a line. It counts as run also when it leaves with a fault. -/
def runLine (env : Env (Paced σ)) (depth : Nat) (line : Text) : Job σ Unit := fun executor =>
  match Interpreter.parseLine env depth line executor.session with
  | .ok _ session => .ok () { executor with session, linesRun := executor.linesRun + 1 }
  | .error exit session => .error exit { executor with session, linesRun := executor.linesRun + 1 }

/-- One tick: end if the session is to end, else run a line that is there and set the next tick. -/
def tick (env : Env (Paced σ)) (depth : Nat) : Job σ Unit := do
  let executor ← get
  let period := executor.session.host.period
  if executor.stopFlag || executor.session.stopped then shutdown
  else if executor.session.host.waiting then schedule period
  else
    let (line, handoff) := executor.handoff.poll
    modify ({ · with handoff })
    match line with
    | none => if handoff.drained then shutdown else schedule period
    | some line =>
      runLine env depth line
      if (← get).session.stopped then shutdown else schedule 0.0

def run (env : Env (Paced σ)) (depth bound : Nat) : Job σ Unit := do
  modifyPaced fun paced => { paced with timers := { paced.timers with running := true } }
  Timers.run timers storeTimers (fun _ => tick env depth) bound

def runUntil (env : Env (Paced σ)) (depth bound : Nat) (deadline : Float) : Job σ Unit :=
  Timers.runUntil timers storeTimers (fun _ => tick env depth) deadline bound

/-- Lets the loop go on for a time in which no line is taken. -/
def wait (env : Env (Paced σ)) (depth bound : Nat) (milliseconds : Int) : Job σ Unit := do
  let deadline ←
    match (← get).session.host.after milliseconds with
    | .ok deadline => pure deadline
    | .error fault => throw (.fault fault)
  modifyPaced ({ · with waiting := true })
  let result ← fun executor =>
    match runUntil env depth bound deadline executor with
    | .ok () after => .ok (Except.ok ()) after
    | .error exit after => .ok (Except.error exit) after
  modifyPaced ({ · with waiting := false })
  match result with
  | .ok () => return
  | .error exit => throw exit

end Executor

namespace Interpreter

variable {σ : Type}

def feed (directives : List Text) (input : Option Text) : List Lines.Event :=
  directives.map (fun line => .line line 0) ++
    (match input with
     | some text => Lines.fold (Lines.ofStream text)
     | none => [])

def pausing (env : Env σ) : Env σ :=
  { env with wait := some fun milliseconds => MonadExcept.ofExcept (Pause.checkForward milliseconds) }

def runSession (env : Env σ) (depth : Nat) (directives : List Text) (input : Option Text) : Run σ Unit := do
  let _ ← runLogical (pausing env) depth true (feed directives input)
  modify (·.closeFiles)

end Interpreter

end CommandScript
