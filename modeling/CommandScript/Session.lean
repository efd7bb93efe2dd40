import CommandScript.Files.Handle
import CommandScript.Flow.Frame
import CommandScript.Host.Services
import CommandScript.Store

/-! The state of a session, and programs that change it. A program ends with a value or leaves in one
of several ways; in either case the changes it made are kept. -/

namespace CommandScript

inductive ShellReply where
  | ran (output errors : Text)
  | failed (message : Text)
  | broken (fault : Fault)
  deriving DecidableEq, Repr

structure Options where
  relativePaths : Bool := true
  parseOnly : Bool := false
  standardInput : Bool := false
  verbose : Bool := false
  jsonReports : Bool := false
  deriving DecidableEq, Repr

structure Env (σ : Type) where
  services : Services σ := {}
  options : Options := {}
  /-- Told how many milliseconds a script waits; without a listener the session sleeps. -/
  wait : Option (Int → EStateM Fault σ Unit) := none
  clock : σ → Float × σ := fun host => (0.0, host)
  home : Text := []
  shell : Text → ShellReply := fun command => .ran [] ("sh: not found: " ++ command ++ "\n")
  /-- How often a loop over a source of the host may be replayed. -/
  passes : Nat := 1000000

structure Session (σ : Type) where
  store : Store
  buffers : List (Text × Buffer) := []
  frame : Frame
  callers : List Frame := []
  depth : Nat := 0
  printFile : Option Handle := none
  writeFile : Option Handle := none
  stopped : Bool := false
  exitCode : Int := 0
  files : FileTree := {}
  output : Array Text := #[]
  diagnostics : Array Text := #[]
  loopCount : Nat := 0
  history : List LoopEvent := []
  host : σ

inductive Exit where
  | error (error : ScriptError)
  | returned
  | stopped (code : Int)
  | fault (fault : Fault)
  | exhausted
  deriving DecidableEq, Repr

abbrev Run (σ : Type) := EStateM Exit (Session σ)

namespace Session

variable {σ : Type}

def start (options : Options) (host : σ) (files : FileTree := {}) : Session σ where
  store :=
    { globals :=
        [("standard_input", truthText options.standardInput), ("parse_only", truthText options.parseOnly)]
      scopes := [[]] }
  frame := { relativePaths := options.relativePaths }
  files := files
  host := host

def root (session : Session σ) : Frame := session.callers.getLast?.getD session.frame

def frames (session : Session σ) : List Frame := session.callers.reverse ++ [session.frame]

def inFile (session : Session σ) : Bool := !session.callers.isEmpty

def modifyRoot (session : Session σ) (f : Frame → Frame) : Session σ :=
  match session.callers.reverse with
  | [] => { session with frame := f session.frame }
  | root :: rest => { session with callers := (f root :: rest).reverse }

def put (session : Session σ) (name value : Text) : Session σ :=
  { session with store := session.store.set name value }

def setGlobal (session : Session σ) (name value : Text) : Session σ :=
  { session with store := session.store.setGlobal name value }

def bind (session : Session σ) (name : Text) (buffer : Buffer) : Session σ :=
  { session with buffers := session.buffers.filter (·.1 ≠ name) ++ [(name, buffer)] }

def buffer? (session : Session σ) (name : Text) : Option Buffer := session.buffers.lookup name

def closePrint (session : Session σ) : Session σ :=
  match session.printFile with
  | none => session
  | some handle => { session with printFile := none, files := handle.close session.files }

def closeWrite (session : Session σ) : Session σ :=
  match session.writeFile with
  | none => session
  | some handle => { session with writeFile := none, files := handle.close session.files }

def closeFiles (session : Session σ) : Session σ := session.closePrint.closeWrite

def stop (session : Session σ) (code : Int) : Session σ :=
  { session with stopped := true, exitCode := code }.closeFiles

def note (session : Session σ) (loop : Loop) (step : LoopStep) : Session σ :=
  { session with history := ⟨loop.serial, step⟩ :: session.history }

/-- Notes which loops the end of a loop has mixed up: the innermost one is taken from the stack, whichever
it is. -/
def noteEnd (session : Session σ) (ending : Loop) : Session σ :=
  match session.frame.loops with
  | [] => session
  | innermost :: _ =>
    if innermost.serial = ending.serial then session
    else (session.note innermost .displaced).note ending .kept

def noteLost (session : Session σ) : Session σ :=
  session.frame.loops.foldl (fun session loop => session.note loop .lost) session

def report (session : Session σ) (text : Text) : Session σ :=
  { session with diagnostics := session.diagnostics.push text }

def write (session : Session σ) (text : Text) : Except Fault (Session σ) :=
  match session.printFile with
  | some handle => do
    let (handle, files) := handle.writeText (← encodeWhole text) session.files
    return { session with printFile := some handle, files }
  | none => .ok { session with output := session.output.push text }

def writeBytes (session : Session σ) (bytes : List UInt8) : Session σ :=
  match session.writeFile with
  | some handle =>
    let (handle, files) := handle.write bytes session.files
    { session with writeFile := some handle, files }
  | none => session

end Session

namespace Run

variable {σ α : Type}

def fail (cause : Cause) : Run σ α := throw (.error { cause })

def ofExcept {ε : Type} (wrap : ε → Exit) : Except ε α → Run σ α
  | .ok value => pure value
  | .error error => throw (wrap error)

def ofMalformed : Except Malformed α → Run σ α := ofExcept fun error => .error { cause := .malformed error }

def ofStore : Except StoreError α → Run σ α := ofExcept fun error => .error { cause := .store error }

def ofCause : Except Cause α → Run σ α := ofExcept fun cause => .error { cause }

def ofFault : Except Fault α → Run σ α := ofExcept .fault

def ofFailure : Except Failure α → Run σ α :=
  ofExcept fun failure =>
    match failure with
    | .cause cause => .error { cause }
    | .fault fault => .fault fault

def attempt (program : Run σ α) : Run σ (Except Exit α) := fun session =>
  match program session with
  | .ok value after => .ok (.ok value) after
  | .error exit after => .ok (.error exit) after

/-- Runs a program and then another one, however the first one left; an exit of the second one
takes the place of an exit of the first. -/
def always (program : Run σ α) (after : Run σ Unit) : Run σ α := do
  let result ← attempt program
  after
  match result with
  | .ok value => return value
  | .error exit => throw exit

def caught (program : Run σ α) : Run σ (Except ScriptError α) := do
  match ← attempt program with
  | .ok value => return .ok value
  | .error (.error error) => return .error error
  | .error exit => throw exit

def onError (program : Run σ α) (handler : ScriptError → Run σ α) : Run σ α := do
  match ← attempt program with
  | .ok value => return value
  | .error (.error error) => handler error
  | .error exit => throw exit

def callLimit : Nat := 994

def deeper (calls : Nat) (program : Run σ α) : Run σ α := do
  let depth := (← get).depth
  if callLimit < depth + calls then throw .exhausted
  modify ({ · with depth := depth + calls })
  always program (modify ({ · with depth }))

def ask (request : HostM σ α) : Run σ (Except Raised α) := fun session =>
  match request session.host with
  | .ok value host => .ok (.ok value) { session with host }
  | .error raised host => .ok (.error raised) { session with host }

def consult (request : σ → α × σ) : Run σ α := fun session =>
  let (reply, host) := request session.host
  .ok reply { session with host }

/-- Makes a request to the host; script errors leave, any other failure becomes one. -/
def askOr (wrap : Text → Cause) (request : HostM σ α) : Run σ α := do
  match ← ask request with
  | .ok value => return value
  | .error (.script error) => throw (.error error)
  | .error (.failure message) => fail (wrap message)

def modifyFrame (f : Frame → Frame) : Run σ Unit :=
  modify fun session => { session with frame := f session.frame }

def put (name value : Text) : Run σ Unit := modify (·.put name value)

def askSetting (request : SettingM σ α) : Run σ (Except Raised α) := do
  let reply ← consult request
  modify fun session => { session with store := session.store.setAll reply.writes }
  return reply.result

def report (text : Text) : Run σ Unit := modify (·.report text)

def write (text : Text) : Run σ Unit := do set (← ofFault ((← get).write text))

def writeLine (text : Text) : Run σ Unit := write (text ++ "\n")

def readVariable (name : Text) : Run σ (Option Text) := do ofFailure ((← get).store.get? name)

def toDouble (n : Int) : Run σ Float :=
  match Number.ofInt? n with
  | some x => pure x
  | none => throw (.fault .integerTooLarge)

end Run

end CommandScript
