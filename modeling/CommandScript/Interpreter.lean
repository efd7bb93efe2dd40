import CommandScript.Command.Basic
import CommandScript.Files.Reader
import CommandScript.Flow.Replay
import CommandScript.Lines

/-! Running lines. A line is a list of statements; a statement is collected into the body of a loop,
decided by the conditional stack, or run. Statements that run further lines are given the function
that runs a line, so only that function is recursive. -/

namespace CommandScript

variable {σ : Type}

namespace Interpreter

/-- Tells the listeners of an event. A failure of theirs is an error of the line being run. -/
def emit (env : Env σ) (event : Text) (args : List Text) : Run σ Unit := do
  match ← Run.askSetting (env.services.emit event args) with
  | .ok () => return
  | .error (.script error) => throw (.error error)
  | .error (.failure message) =>
    let frame := (← get).frame
    throw (.error
      { cause := .command (.hookFailed event message), place := some (frame.place frame.statement) })

/-- An error that is not malformed text gets the place of the line it arose in, if it has none. -/
def locate (frame : Frame) (line : Text) (error : ScriptError) : ScriptError :=
  if error.isMalformed || error.place.isSome then error
  else { error with place := some (frame.place line) }

def runLine (env : Env σ) (exec : Text → Run σ Unit) (line : Text) : Run σ Unit := do
  Run.modifyFrame ({ · with statement := line })
  emit env "before_line" [line]
  Run.onError (exec line) fun error => do
    let error := locate (← get).frame line error
    emit env "on_error" [error.kind.label]
    throw (.error error)
  emit env "after_line" [line]

def decideCondition (env : Env σ) (word : ConditionWord) (text : Text) : Run σ Bool :=
  Run.onError (Expr.condition env text) fun error =>
    if error.isMalformed then Run.fail (.flow (.conditionMalformed word error.message))
    else throw (.error error)

def setConditions (conditions : List Branch) : Run σ Unit := Run.modifyFrame ({ · with conditions })

def passConditions (env : Env σ) (leaving : Bool) (line : Text) : Run σ Bool := do
  let conditions := (← get).frame.conditions
  match Flow.judge leaving conditions line with
  | .runs => return false
  | .consumed after =>
    setConditions after
    return true
  | .failed error => Run.fail (.flow error)
  | .asks word text =>
    let decided ← Run.caught (decideCondition env word text)
    setConditions (Flow.settle word decided conditions)
    Run.ofExcept .error (decided.map fun _ => true)

def collect (env : Env σ) (exec : Text → Run σ Unit) (line : Text) : Run σ Unit := do
  let frame := (← get).frame
  let (blocks, result) := frame.blocks.track line
  Run.modifyFrame ({ · with blocks })
  match result with
  | .error error => Run.fail (.flow error)
  | .ok true => Flow.endLoop env (runLine env exec)
  | .ok false =>
    Run.modifyFrame (·.modifyLoop fun loop => { loop with lines := loop.lines ++ [⟨line, frame.line⟩] })

def startLoop (env : Env σ) (line : Text) : Run σ Unit := do
  let header ← Run.ofCause (LoopHeader.parse line)
  Run.modifyFrame ({ · with blocks := ⟨1, 0⟩ })
  let loop ← Flow.openLoop env header
  Run.modifyFrame fun frame => { frame with loops := loop :: frame.loops }

/-- Runs a logical line of a script, and tells whether the script goes on: a line that fails or returns
ends it. -/
def runScriptLine (env : Env σ) (exec : Text → Run σ Unit) (text : Text) (number : Nat) : Run σ Bool := do
  Run.modifyFrame ({ · with line := number })
  match ← Run.attempt (runLine env exec text) with
  | .ok () => return true
  | .error .returned =>
    setConditions []
    Flow.abandonAll env
    return false
  | .error (.error error) =>
    Report.add env error
    return false
  | .error exit => throw exit

def runFolded (env : Env σ) (exec : Text → Run σ Unit) (text : Text) (number : Nat) : Run σ Bool :=
  match Lines.deliver text number with
  | .line text number :: _ => runScriptLine env exec text number
  | _ => return true

/-- Reads and runs a script until a line ends it; `part` is the logical line being read and `number` the
number of physical lines read so far. The first argument bounds the number of lines. -/
def runScript (env : Env σ) (exec : Text → Run σ Unit) :
    Nat → Reader → Option Lines.Open → Nat → Run σ Unit
  | 0, _, _, _ => throw .exhausted
  | bound + 1, reader, part, number => do
    let (raw, reader) ← Run.ofFault (reader.nextLine (← get).files)
    match raw, part with
    | none, none => return
    | none, some part =>
      if ← runFolded env exec part.text number then runScript env exec bound reader none number
    | some raw, part =>
      let (part, follows, warns) := Lines.extend part raw
      if warns then Run.report Lines.warningText
      if follows then runScript env exec bound reader (some part) (number + 1)
      else if ← runFolded env exec part.text (number + 1) then
        runScript env exec bound reader none (number + 1)

def runOpened (env : Env σ) (exec : Text → Run σ Unit) (place : Location) : Run σ Unit := do
  runScript env exec env.passes { place } none 0
  (← get).frame.unclosedBlocks.forM fun problem => Run.report ("parse: " ++ problem)
  Flow.abandonAll env

/-- Runs an inline block; what it sets becomes the scope of the file about to run. -/
def runBlock (exec : Text → Run σ Unit) (block : Text) : Run σ Scope := do
  modify fun session => { session with store := session.store.openPending }
  let result ← Run.attempt (Run.deeper 4 (exec block))
  let (scope, store) := (← get).store.closePending
  modify ({ · with store })
  match result with
  | .ok () => return scope
  | .error exit => throw exit

def enterFrame (frame : Frame) (scope : Scope) : Run σ Unit :=
  modify fun session =>
    { session with
      frame
      callers := session.frame :: session.callers
      store := session.store.pushScope scope }

def leaveFrame : Run σ Unit :=
  modify fun session =>
    { session.noteLost with
      frame := session.callers.head?.getD session.frame
      callers := session.callers.drop 1
      store := { session.store with scopes := session.store.scopes.drop 1 } }

def parseFile (env : Env σ) (exec : Text → Run σ Unit) (target : ScriptTarget) : Run σ Unit := do
  let caller := (← get).frame
  let base := caller.path.map Path.directory
  let path := Path.resolveScript env.home target.path base caller.relativePaths
  FileArguments.checkPath path
  let place ← Run.ofExcept (fun error : OpenError => .error { cause := .command (.cannotParse path error.text) })
    ((← get).files.locate path)
  let scope ←
    match target.block with
    | some block => if block.isEmpty then pure [] else runBlock exec block
    | none => pure []
  Run.deeper 5 do
    enterFrame { path := some path } scope
    Run.always (runOpened env exec place) leaveFrame

def parseString (exec : Text → Run σ Unit) (rest : Text) : Run σ Unit := do
  Command.require rest "parse_string" "argument"
  let stored ← Run.readVariable rest
  Run.deeper 3 (exec (Text.stripQuotes (stored.getD rest)))

def runCommand (env : Env σ) (exec : Text → Run σ Unit) (command : Command) (rest : Text) : Run σ Unit :=
  match command with
  | .addAlias => Command.runAlias rest
  | .removeAlias => Command.runUnalias env rest
  | .print => Command.runPrint env rest
  | .printf => Command.runPrintf env rest
  | .sprint => Command.runSprint env .sprint rest
  | .sprintf => Command.runSprint env .sprintf rest
  | .printOpen => Command.runPrintOpen env rest
  | .printClose => modify (·.closePrint)
  | .writeOpen => Command.runWriteOpen env rest
  | .writeClose => modify (·.closeWrite)
  | .parse => do
    let store := (← get).store
    parseFile env exec (← Run.ofFailure (ScriptTarget.read store.get? rest))
  | .parseString => parseString exec rest
  | .leaveFile => Command.runLeaveFile
  | .quit => Command.runQuit env rest
  | .set => Command.runSet env rest
  | .setLogical => Command.runSetLogical env rest
  | .unset => Command.runUnset rest
  | .publish => Command.runPublish rest
  | .system => Command.runSystem env rest
  | .wait => Command.runWait env rest
  | .relativePaths => Command.runRelativePaths rest
  | .leaveLoop => Command.runLeaveLoop

def isWriteCall (line : Text) : Bool :=
  match Text.afterKeyword? "write" line with
  | none => false
  | some rest =>
    (["string", "int", "long", "float", "double", "array"] : List Text).any fun kind =>
      (Text.afterKeyword? kind rest).any Flow.opensParen

def runStatement (env : Env σ) (exec : Text → Run σ Unit) (line : Text) : Run σ Unit := do
  if Flow.isForeach line then startLoop env line
  else if Flow.isEndfor line then Run.fail (.flow .unexpectedEndfor)
  else if line.head? = some (.char '!') then Command.runShell env (Text.trim (line.drop 1))
  else
    let (word, rest) := Text.cutOrAll ' ' line
    match Command.of? word with
    | some command => runCommand env exec command (Text.trim rest)
    | none =>
      if isWriteCall line then
        let _ ← Expr.valueOf env line
      else if !(← Command.assign env line) then Command.dispatch env line

def keepsAliases (line : Text) : Bool := Text.lower (line.take 7) = "unalias"

def statement (env : Env σ) (exec : Text → Run σ Unit) (text : Text) : Run σ Unit := do
  let line := Text.trim (Text.stripComment text)
  if line.isEmpty then return
  Run.ofMalformed (Text.checkBalance line)
  let frame := (← get).frame
  if frame.loops.head?.any Loop.isCollecting then collect env exec line
  else
    let line := if keepsAliases line then line else AliasTable.apply frame.aliasTables line
    let leaving := frame.loops.head?.any (·.mode = .leaving)
    if ← passConditions env leaving line then return
    if !leaving then runStatement env exec line

def statements (env : Env σ) (exec : Text → Run σ Unit) (texts : List Text) : Run σ Unit :=
  texts.forM (statement env exec)

/-- Runs a line without events; `depth` bounds how deeply lines may run further lines. -/
def execLine (env : Env σ) : Nat → Text → Run σ Unit
  | 0, _ => throw .exhausted
  | depth + 1, line => do
    statements env (execLine env depth) (← Run.ofMalformed (Text.splitStatements line))

/-- Runs one line of the session itself. Script errors are reported; the answer tells whether the
line succeeded. -/
def parseLine (env : Env σ) (depth : Nat) (line : Text) : Run σ Bool := do
  if (← get).stopped then return false
  modify (·.modifyRoot fun root => { root with line := root.line + 1 })
  match ← Run.attempt (Run.deeper 8 (runLine env (execLine env depth) line)) with
  | .ok () => return true
  | .error (.stopped code) =>
    modify (·.stop code)
    return false
  | .error (.error error) =>
    Report.add env error
    return false
  | .error exit => throw exit

def runLogical (env : Env σ) (depth : Nat) (good : Bool) : List Lines.Event → Run σ Bool
  | [] => return good
  | .asked _ :: rest => runLogical env depth good rest
  | .warning :: rest => do
    Run.report Lines.warningText
    runLogical env depth good rest
  | .line text _ :: rest => do
    let good := (← parseLine env depth text) && good
    if (← get).stopped then return good else runLogical env depth good rest

def runText (env : Env σ) (depth : Nat) (text : Text) : Run σ Bool :=
  runLogical env depth true (Lines.fold (Lines.ofText text))

end Interpreter

end CommandScript
