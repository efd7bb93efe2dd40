import CommandScript.Error.Cause
import CommandScript.Flow.Loop
import CommandScript.Value

/-! The host around a session. It executes commands the language does not know, resolves names, drives
loops over its own things and listens to events. The host has a state of its own, of any type, and
every request may change it, answer or fail. -/

namespace CommandScript

inductive Answer where
  | string
  | isTrue
  | isFalse
  | notFound
  | failed
  | more
  | noMore
  deriving DecidableEq, Repr

def Answer.text : Answer → Text
  | string => "string"
  | isTrue => "true"
  | isFalse => "false"
  | notFound => "variable_not_found"
  | failed => "error"
  | more => "more"
  | noMore => "no_more"

structure Outcome where
  answer : Answer
  value : Text := []
  buffer : Option Buffer := none

namespace Outcome

def string (value : Text) : Outcome := { answer := .string, value }

def ofBuffer (buffer : Buffer) : Outcome := { answer := .string, buffer := some buffer }

def boolean (flag : Bool) : Outcome :=
  { answer := if flag then .isTrue else .isFalse, value := truthText flag }

def notFound (message : Text := []) : Outcome := { answer := .notFound, value := message }

def failed (message : Text := []) : Outcome := { answer := .failed, value := message }

def ok (outcome : Outcome) : Bool :=
  outcome.answer = .string || outcome.answer = .isTrue || outcome.answer = .isFalse

def toValue (outcome : Outcome) : Except Fault Value :=
  match outcome.buffer, outcome.answer with
  | some buffer, _ => .ok (.buffer buffer)
  | none, .isTrue => .ok (.text "true")
  | none, .isFalse => .ok (.text "false")
  | none, _ => Value.classify outcome.value

def toText (outcome : Outcome) : Text :=
  match outcome.buffer with
  | some buffer => buffer.shown
  | none => outcome.value

end Outcome

inductive CommandResult where
  | parsed (output : Text)
  | refused (message : Text)
  | notFound
  deriving DecidableEq, Repr

inductive Raised where
  | script (error : ScriptError)
  | failure (message : Text)
  deriving DecidableEq, Repr

def Raised.message : Raised → Text
  | script error => error.message
  | failure message => message

/-- A request to a host with state `σ`; the state is kept when the request fails. -/
abbrev HostM (σ : Type) := EStateM Raised σ

abbrev Dispatcher (σ : Type) := Text → HostM σ CommandResult

structure Resolver (σ : Type) where
  resolve : Text → HostM σ Outcome := fun _ => pure Outcome.notFound
  call : Text → List Text → HostM σ Outcome := fun _ _ => pure Outcome.notFound

/-- A reply that may set variables: what it sets, in order, and how it ends. -/
structure Reply (α : Type) where
  writes : List (Text × Text) := []
  result : Except Raised α

abbrev SettingM (σ α : Type) := σ → Reply α × σ

abbrev Source (σ : Type) := SourceVerb → Option Text → Text → SettingM σ Answer

def Source.none {σ : Type} : Source σ := fun _ _ _ host => ({ result := .ok .noMore }, host)

structure Hook (σ : Type) where
  event : Text
  priority : Int := 0
  handler : List Text → SettingM σ Unit

inductive RegistrationError where
  | emptyType
  | takenType (type : Text)
  | notFound (path : Text)
  deriving DecidableEq, Repr

def RegistrationError.message : RegistrationError → Text
  | emptyType => "Foreach source type must be non-empty"
  | takenType type => "Foreach source '" ++ type ++ "' is already registered"
  | notFound path => "Adapter not found: " ++ path

structure Services (σ : Type) where
  dispatchers : List (Dispatcher σ) := []
  resolvers : List (Resolver σ) := []
  sources : List (Text × Source σ) := []
  hooks : List (Hook σ) := []

namespace Services

variable {σ : Type}

def addDispatcher (services : Services σ) (dispatcher : Dispatcher σ) : Services σ :=
  { services with dispatchers := services.dispatchers ++ [dispatcher] }

def addResolver (services : Services σ) (resolver : Resolver σ) : Services σ :=
  { services with resolvers := services.resolvers ++ [resolver] }

def addSource (services : Services σ) (type : Text) (source : Source σ) :
    Except RegistrationError (Services σ) :=
  if type.isEmpty then .error .emptyType
  else if (services.sources.lookup type).isSome then .error (.takenType type)
  else .ok { services with sources := services.sources ++ [(type, source)] }

/-- Listeners of higher priority are told first, those of equal priority in order of
registration. -/
def addHook (services : Services σ) (hook : Hook σ) : Services σ :=
  let before := services.hooks.takeWhile (hook.priority ≤ ·.priority)
  { services with hooks := before ++ hook :: services.hooks.drop before.length }

def dispatchWith (line : Text) : List (Dispatcher σ) → HostM σ CommandResult
  | [] => pure .notFound
  | dispatcher :: rest => do
    let result ← dispatcher line
    if result = .notFound then dispatchWith line rest else return result

def dispatch (services : Services σ) (line : Text) : HostM σ CommandResult :=
  dispatchWith line services.dispatchers

def askFirst : List (HostM σ Outcome) → HostM σ Outcome
  | [] => pure Outcome.notFound
  | request :: rest => do
    let outcome ← request
    if outcome.answer = .notFound then askFirst rest else return outcome

def resolve (services : Services σ) (name : Text) : HostM σ Outcome :=
  askFirst (services.resolvers.map (·.resolve name))

def call (services : Services σ) (name : Text) (args : List Text) : HostM σ Outcome :=
  askFirst (services.resolvers.map (·.call name args))

def tell (args : List Text) : List (Hook σ) → SettingM σ Unit
  | [], host => ({ result := .ok () }, host)
  | hook :: rest, host =>
    let (reply, host) := hook.handler args host
    match reply.result with
    | .error _ => (reply, host)
    | .ok () =>
      let (later, host) := tell args rest host
      ({ later with writes := reply.writes ++ later.writes }, host)

def emit (services : Services σ) (event : Text) (args : List Text) : SettingM σ Unit :=
  tell args (services.hooks.filter (·.event = event))

/-- Asks the source of a type; if none is registered, the resolvers are asked. -/
def askSource (services : Services σ) (verb : SourceVerb) (qualifier : Option Text) (type name : Text) :
    SettingM σ Answer :=
  match services.sources.lookup type with
  | some source => source verb qualifier name
  | none => fun host =>
    match services.resolve (verb.requestName qualifier type name) host with
    | .ok outcome host => ({ result := .ok outcome.answer }, host)
    | .error raised host => ({ result := .error raised }, host)

end Services

end CommandScript
