import CommandScript.Command.Names
import CommandScript.Command.Target
import CommandScript.Schedule.Timers
import CommandScript.Words

/-! The commands of the language that do not run further lines. -/

namespace CommandScript

inductive Command where
  | addAlias
  | removeAlias
  | print
  | printf
  | sprint
  | sprintf
  | printOpen
  | printClose
  | writeOpen
  | writeClose
  | parse
  | parseString
  | leaveFile
  | quit
  | set
  | setLogical
  | unset
  | publish
  | system
  | wait
  | relativePaths
  | leaveLoop
  deriving DecidableEq, Repr

namespace Command

def table : List (Text × Command) :=
  [("alias", addAlias), ("unalias", removeAlias), ("print", print), ("printf", printf),
   ("sprint", sprint), ("sprintf", sprintf), ("printopen", printOpen), ("printclose", printClose),
   ("writeopen", writeOpen), ("writeclose", writeClose), ("parse", parse),
   ("parse_string", parseString), ("return", leaveFile), ("quit", quit), ("set", set),
   ("setb", setLogical), ("unset", unset), ("export", publish), ("system", system), ("wait", wait),
   ("relative_file_paths", relativePaths), ("break", leaveLoop)]

def of? (word : Text) : Option Command := table.lookup (Text.lower word)

variable {σ : Type}

def fail {α : Type} (error : CommandError) : Run σ α := Run.fail (.command error)

def require (rest command what : Text) : Run σ Unit := do
  if rest.isEmpty then fail (.missing command what)

def runAlias (rest : Text) : Run σ Unit := do
  let frame := (← get).frame
  let tables := frame.aliasTables
  if rest.isEmpty then
    if tables.flatten.isEmpty then Run.writeLine "No aliases."
    tables.flatten.forM fun entry => Run.writeLine (entry.name ++ "=" ++ entry.value)
  else
    let entry ← Run.ofExcept (fun error => .error { cause := .aliasing error }) (Alias.parse rest)
    Run.modifyFrame (·.withAliasTables (AliasTable.define tables frame.loops.length entry))

def runUnalias (env : Env σ) (rest : Text) : Run σ Unit := do
  require rest "unalias" "arguments"
  let tells := env.options.standardInput && !(← get).inFile
  (Text.words rest).forM fun name => do
    let tables := (← get).frame.aliasTables
    Run.modifyFrame (·.withAliasTables (tables.map (AliasTable.remove · name)))
    if tells then
      Run.writeLine (name ++ if tables.any (AliasTable.has · name) then (" removed" : Text) else " not defined")

def runPrint (env : Env σ) (rest : Text) : Run σ Unit := do
  require rest "print" "arguments"
  Run.writeLine (← PrintStyle.print.render env rest)

def runPrintf (env : Env σ) (rest : Text) : Run σ Unit := do
  require rest "printf" "arguments"
  let text ← PrintStyle.printf.render env rest
  if (← get).printFile.isSome then Run.writeLine text
  else if Text.endsWith "\\n" text then Run.writeLine (text.take (text.length - 2))
  else Run.write text

def runSprint (env : Env σ) (style : PrintStyle) (rest : Text) : Run σ Unit := do
  require rest style.command "string_name"
  let (name, items) := Text.cutOrAll ' ' rest
  if (Text.trim items).isEmpty then fail (.missing style.command "print arguments")
  Run.put name (← style.render env items)

def runPrintOpen (env : Env σ) (rest : Text) : Run σ Unit := do
  let (path, append) ← FileArguments.target env "printOpen" rest
  modify (·.closePrint)
  let handle ← FileArguments.openFile "printOpen" path append
  modify ({ · with printFile := some handle })

def runWriteOpen (env : Env σ) (rest : Text) : Run σ Unit := do
  let (path, append) ← FileArguments.target env "writeOpen" rest
  modify (·.closeWrite)
  let handle ← FileArguments.openFile "writeOpen" path append
  modify ({ · with writeFile := some handle })

/-- Ends the session. A script that runs inside a session with standard input does not. -/
def runQuit (env : Env σ) (rest : Text) : Run σ Unit := do
  if env.options.standardInput && !env.options.parseOnly && (← get).inFile then return
  if rest.isEmpty then throw (.stopped 0)
  match ← Run.ofFault (Number.parseInt (← Words.substitute env rest)) with
  | some code => throw (.stopped code)
  | none => fail (.exitCode rest)

def storedName (command rest : Text) : Run σ (Text × Text) := do
  let refuse := fun error => fail (.name command error)
  let ends := fun c => Text.isBlank c || c = '=' || Quote.isOpening c
  let name := rest.takeWhile (!ends ·)
  match Names.checkStored name with
  | .error error => refuse error
  | .ok () =>
    match Text.trimLeft (rest.drop name.length) with
    | '=' :: text => return (name, Text.trim text)
    | _ => fail (.missing command "'='")

def runSet (env : Env σ) (rest : Text) : Run σ Unit := do
  let (name, text) ← storedName "set" rest
  Run.put name ("\"" ++ (← Words.concatenate env "set" text) ++ "\"")

def runSetLogical (env : Env σ) (rest : Text) : Run σ Unit := do
  let (name, text) ← storedName "setb" rest
  let flag ← Run.onError (Expr.condition env text) fun _ => fail (.logical text)
  Run.put name (truthText flag)

def runUnset (rest : Text) : Run σ Unit := do
  require rest "unset" "arguments"
  (Text.words rest).forM fun name =>
    modify fun session => { session with store := (session.store.delete name).2 }

def runPublish (rest : Text) : Run σ Unit := do
  require rest "export" "arguments"
  let store ← Run.ofStore ((← get).store.publish rest)
  modify ({ · with store })

def runShell (env : Env σ) (command : Text) : Run σ Unit := do
  require command "system" "arguments"
  match env.shell command with
  | .failed message => fail (.shell message)
  | .broken fault => throw (.fault fault)
  | .ran output errors =>
    if !output.isEmpty then Run.write output
    if !errors.isEmpty then Run.report (errors.reverse.dropWhile (· = .char '\n')).reverse

def runSystem (env : Env σ) (rest : Text) : Run σ Unit := do
  require rest "system" "arguments"
  runShell env (Text.stripQuotes (← Words.substitute env rest))

def pause (env : Env σ) (milliseconds : Int) : Run σ Unit :=
  match env.wait with
  | none => Run.ofFault (Pause.check milliseconds)
  | some handler => fun session =>
    match handler milliseconds session.host with
    | .ok () host => .ok () { session with host }
    | .error fault host => .error (.fault fault) { session with host }

def runWait (env : Env σ) (rest : Text) : Run σ Unit := do
  require rest "wait" "argument"
  match ← Run.ofFault (Number.parseInt (← Words.substitute env rest)) with
  | some milliseconds => pause env milliseconds
  | none => fail .waitArgument

def runRelativePaths (rest : Text) : Run σ Unit := do
  match truthOf rest with
  | some flag => Run.modifyFrame ({ · with relativePaths := flag })
  | none => fail .pathsFlag

def runLeaveLoop : Run σ Unit := do
  if (← get).frame.loops.isEmpty then Run.fail (.flow .unexpectedBreak)
  Run.modifyFrame (·.modifyLoop ({ · with mode := .leaving }))

def runLeaveFile : Run σ Unit := do
  if (← get).inFile then throw .returned else Run.fail (.flow .unexpectedReturn)

/-- Assigns the value of an expression, which has to be a number. A line that is no assignment is
left to others. -/
def assign (env : Env σ) (line : Text) : Run σ Bool := do
  match Names.splitAssignment? line with
  | none => return false
  | some (name, value) =>
    let value := Text.trim value
    let refuse := fun error => fail (.name "assignment" error)
    if name.contains '.' then return false
    match Names.checkAssigned name with
    | .error error => refuse error
    | .ok () => pure ()
    if value.isEmpty then refuse (.missingValue name)
    if value.head?.any Quote.isOpening then refuse (.quotedValue name)
    let shown ← Run.ofFault (← Expr.valueOf env value).render
    if !Number.isNumber shown then refuse (.notANumber shown)
    Run.put name shown
    return true

/-- Hands a line to the host, with the words after the command replaced by their values. -/
def dispatch (env : Env σ) (line : Text) : Run σ Unit := do
  let command := (Text.firstWord line).takeWhile (· ≠ .char '=')
  if command.isEmpty || !command.all Text.isDottedNameChar then Run.fail (.malformed (.statement line))
  let rest := line.drop command.length
  let text := command ++ (← Words.substitute env rest)
  let result ← Run.askOr (fun message => .command (.dispatchFailed command message))
    (env.services.dispatch text)
  match result with
  | .refused message =>
    fail (.dispatchRefused command (Text.orElse message ("command argument error: " ++ text)))
  | .notFound =>
    if (Text.trimLeft rest).head? = some (.char '=') then fail (.unknownVariable command)
    else fail (.unknownCommand command)
  | .parsed output => if !output.isEmpty then Run.writeLine output

end Command

end CommandScript
