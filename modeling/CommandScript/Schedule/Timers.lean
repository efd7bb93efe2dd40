import CommandScript.Number.Double

/-! Pauses of a script, and timers on a clock that only moves when the loop sleeps. Timers fire in the order
in which they fall due, and those due at one moment in the order in which they were set. -/

namespace CommandScript

namespace Pause

def seconds (milliseconds : Int) : Except Fault Float :=
  match Number.ofInt? milliseconds with
  | some x => .ok (x / 1000.0)
  | none => .error .integerTooLarge

/-- A pause is not negative, and the clock counts it in nanoseconds of 64 bits. -/
def check (milliseconds : Int) : Except Fault Unit := do
  let nanoseconds := (← seconds milliseconds) * 1000000000.0
  if nanoseconds.abs ≥ 9223372036854775808.0 then throw .sleepRange
  if milliseconds < 0 then throw .negativeSleep

def checkForward (milliseconds : Int) : Except Fault Unit :=
  if milliseconds < 0 then (seconds milliseconds).map fun _ => () else check milliseconds

end Pause

structure Timer (α : Type) where
  due : Float
  number : Nat
  payload : α

structure Timers (α : Type) where
  now : Float := 0.0
  queue : List (Timer α) := []
  count : Nat := 0
  running : Bool := false
  sleeps : Array Float := #[]

namespace Timers

variable {α : Type}

def insert (timer : Timer α) : List (Timer α) → List (Timer α)
  | [] => [timer]
  | first :: rest =>
    if timer.due < first.due then timer :: first :: rest else first :: insert timer rest

def later (timers : Timers α) (milliseconds : Float) (payload : α) : Timers α :=
  let timer : Timer α := ⟨timers.now + milliseconds / 1000.0, timers.count, payload⟩
  { timers with queue := insert timer timers.queue, count := timers.count + 1 }

def advance (timers : Timers α) (seconds : Float) : Timers α :=
  { timers with now := timers.now + seconds }

def sleep (timers : Timers α) (seconds : Float) : Timers α :=
  { timers.advance seconds with sleeps := timers.sleeps.push seconds }

def next? (timers : Timers α) : Option (α × Timers α) :=
  match timers.queue with
  | [] => none
  | timer :: rest =>
    let delay := timer.due - timers.now
    let timers := { timers with queue := rest }
    some (timer.payload, if delay > 0.0 then timers.sleep delay else timers)

inductive Step (α : Type) where
  | done (timers : Timers α)
  | fire (payload : α) (timers : Timers α)

def stepUntil (timers : Timers α) (deadline : Float) : Step α :=
  if timers.now ≥ deadline then .done timers
  else
    match timers.queue.head?, timers.next? with
    | some timer, some (payload, after) =>
      if timer.due ≤ deadline then .fire payload after else .done (timers.sleep (deadline - timers.now))
    | _, _ => .done (timers.sleep (deadline - timers.now))

variable {m : Type → Type} [Monad m]

/-- Fires timers until there is none or the loop is stopped; `bound` is the greatest number of
timers to fire. -/
def run (access : m (Timers α)) (store : Timers α → m Unit) (fire : α → m Unit) : Nat → m Unit
  | 0 => pure ()
  | bound + 1 => do
    let timers ← access
    if timers.running then
      match timers.next? with
      | none => pure ()
      | some (payload, after) =>
        store after
        fire payload
        run access store fire bound

def runUntil (access : m (Timers α)) (store : Timers α → m Unit) (fire : α → m Unit) (deadline : Float) :
    Nat → m Unit
  | 0 => pure ()
  | bound + 1 => do
    match (← access).stepUntil deadline with
    | .done after => store after
    | .fire payload after =>
      store after
      fire payload
      runUntil access store fire deadline bound

end Timers

end CommandScript
