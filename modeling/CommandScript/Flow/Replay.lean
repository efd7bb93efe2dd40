import CommandScript.Expr.Eval
import CommandScript.Report

/-! Loops while they run: the first element is bound when the header is read, the next ones between
the passes, and the source is released when the loop is closed. -/

namespace CommandScript.Flow

variable {σ : Type}

/-- Asks a loop's source. Failures other than script errors become script errors, and so does malformed
text. -/
def askSource (env : Env σ) (verb : SourceVerb) (qualifier : Option Text) (type name : Text) :
    Run σ Answer := do
  match ← Run.askSetting (env.services.askSource verb qualifier type name) with
  | .ok answer => return answer
  | .error (.script error) =>
    if error.isMalformed then Run.fail (.flow (.verbFailed verb.text error.message))
    else throw (.error error)
  | .error (.failure message) => Run.fail (.flow (.verbFailed verb.text message))

def rangeBound (env : Env σ) (bound : Bound) (text : Text) : Run σ Int := do
  let outcome ← Expr.evaluate env text
  match ← if outcome.answer = .string then Run.ofFault (Number.parseInt outcome.value) else pure none with
  | some n => return n
  | none =>
    if outcome.answer = .notFound then Run.fail (.flow (.boundUndefined bound text))
    else Run.fail (.flow (.boundText bound text))

def listFields (saved : Text) : List Text :=
  ((List.splitOn (.char ',') (Text.stripQuotes saved)).map Text.trim).filter (· ≠ [])

def readingIf (nonempty : Bool) : LoopMode := if nonempty then .reading else .dropping

def bindFields (name : Text) : Run σ Loop := do
  match ← Run.readVariable name with
  | none => Run.fail (.flow (.notAString name))
  | some saved =>
    let fields := listFields saved
    if let some first := fields.head? then Run.put name first
    return { name, source := .list fields (min 1 fields.length) saved, mode := readingIf !fields.isEmpty }

def bindFirst (env : Env σ) : LoopHeader → Run σ Loop
  | .range name first last => do
    let start ← rangeBound env .start first
    let stop ← rangeBound env .stop last
    if start ≤ stop then Run.put name (Text.ofInt start)
    return { name, source := .range start stop start, mode := readingIf (start ≤ stop) }
  | .list name literal => do
    if let some text := literal then Run.put name text
    bindFields name
  | .external name qualifier type => do
    let loop : LoopMode → Loop := fun mode => { name, source := .external qualifier type, mode }
    let label := LoopSource.label qualifier type
    match ← askSource env .start qualifier type name with
    | .more => return loop .reading
    | .noMore => return loop .dropping
    | .notFound => Run.fail (.flow (.sourceType label))
    | _ => Run.fail (.flow (.sourceRefused label name))

def enroll (loop : Loop) : Run σ Loop := do
  let loop := { loop with serial := (← get).loopCount }
  modify fun session => { session.note loop (.opened loop.sourceKey?) with loopCount := session.loopCount + 1 }
  return loop

def openLoop (env : Env σ) (header : LoopHeader) : Run σ Loop := do enroll (← bindFirst env header)

def advance (env : Env σ) (depth : Nat) : Run σ Answer := do
  match (← get).frame.loopAt? depth with
  | none => return .noMore
  | some loop =>
    let step := fun source => Run.modifyFrame (·.modifyLoopAt depth fun loop => { loop with source })
    match loop.source with
    | .list fields position saved =>
      match fields[position]? with
      | none => return .noMore
      | some field =>
        Run.put loop.name field
        step (.list fields (position + 1) saved)
        return .more
    | .range start stop current =>
      step (.range start stop (current + 1))
      if current + 1 > stop then return .noMore
      Run.put loop.name (Text.ofInt (current + 1))
      return .more
    | .external qualifier type => askSource env .next qualifier type loop.name

/-- Gives back what a loop holds: a list variable gets the text it had, and a source is asked to stop. -/
def giveBack (env : Env σ) (loop : Loop) : Run σ Unit := do
  match loop.source with
  | .list _ _ saved => Run.put loop.name saved
  | .range _ _ _ => return
  | .external qualifier type =>
    let _ ← askSource env .stop qualifier type loop.name

def closeLoop (env : Env σ) (loop : Loop) : Run σ Unit := do
  modify (·.note loop (.released loop.sourceKey?))
  giveBack env loop

def abandonLoops (env : Env σ) : Nat → Run σ Unit
  | 0 => pure ()
  | count + 1 => do
    match (← get).frame.loops with
    | [] => return
    | loop :: rest =>
      Run.modifyFrame ({ · with loops := rest })
      Run.onError (closeLoop env loop) (Report.add env)
      abandonLoops env count

def abandonAll (env : Env σ) : Run σ Unit := do abandonLoops env (← get).frame.loops.length

def budget (env : Env σ) (loop : Loop) : Nat :=
  match loop.source with
  | .list fields _ _ => fields.length
  | .range start stop _ => (stop - start + 1).toNat
  | .external _ _ => env.passes

/-- Runs the lines of a body. A failing line is reported and ends the loop with an error; the
conditional stack is cut down to what it was at the loop's start. -/
def replayLines (env : Env σ) (runLine : Text → Run σ Unit) (conditions : Nat) : List BodyLine → Run σ Unit
  | [] => pure ()
  | line :: rest => do
    Run.modifyFrame ({ · with line := line.number })
    Run.onError (runLine line.text) fun error => do
      Run.modifyFrame (·.trimConditions conditions)
      Report.add env error
      Run.fail (.flow .body)
    replayLines env runLine conditions rest

def replay (env : Env σ) (runLine : Text → Run σ Unit) (depth conditions : Nat) (lines : List BodyLine) :
    Nat → Nat → Run σ Answer
  | 0, _ => throw .exhausted
  | passes + 1, pass => do
    Run.put "for_index" (Text.ofNat pass)
    replayLines env runLine conditions lines
    if ((← get).frame.loopAt? depth).any (·.mode = .leaving) then return .noMore
    let answer ← advance env depth
    if answer = .more then replay env runLine depth conditions lines passes (pass + 1) else return answer

/-- Takes a loop from the stack: the line number goes back to that of the loop's end, the innermost
loop is dropped, and the loop at the depth is closed. -/
def finishLoop (env : Env σ) (depth resume : Nat) : Run σ Unit := do
  let loop := (← get).frame.loopAt? depth
  if let some loop := loop then modify (·.noteEnd loop)
  Run.modifyFrame fun frame => { frame with line := resume, loops := frame.loops.drop 1 }
  match loop with
  | some loop => closeLoop env loop
  | none => return

def endLoop (env : Env σ) (runLine : Text → Run σ Unit) : Run σ Unit := do
  let frame := (← get).frame
  match frame.loops with
  | [] => return
  | loop :: outer =>
    let depth := outer.length
    let answer ← Run.always
      (if loop.mode = .reading then do
        Run.modifyFrame (·.modifyLoop ({ · with mode := .replaying }))
        Run.deeper 5 (replay env runLine depth frame.conditions.length loop.lines (budget env loop) 1)
      else pure .noMore)
      (finishLoop env depth frame.line)
    if answer = .notFound then Run.fail (.flow .nextUndefined)
    if answer = .failed then
      Run.fail (.flow (.nextFailed (match loop.source with | .external _ type => type | _ => [])))

end CommandScript.Flow
