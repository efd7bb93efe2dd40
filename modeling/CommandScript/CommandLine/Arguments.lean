import CommandScript.Text.Casing
import CommandScript.Text.Letter

/-! The arguments of the command line. Options may be shortened to an unambiguous start, short ones
may be run together, and all plain arguments have to stand side by side. -/

namespace CommandScript.CommandLine

inductive Flag where
  | help
  | parseOnly
  | command
  | adapter
  | installDir
  | name
  | noInit
  | verbose
  | jsonReports
  deriving DecidableEq, Repr

def Flag.takesValue : Flag → Bool
  | command | adapter | installDir | name => true
  | _ => false

def spellings : List (Text × Flag) :=
  [("-h", .help), ("--help", .help), ("-i", .parseOnly), ("--parse-only", .parseOnly),
   ("-c", .command), ("--command", .command), ("--adapter", .adapter),
   ("--install-dir", .installDir), ("--name", .name), ("--no-init", .noInit),
   ("-verbose", .verbose), ("--verbose", .verbose), ("--traceback-json", .jsonReports)]

def flagOf? (spelling : Text) : Option Flag := spellings.lookup spelling

structure Arguments where
  plain : List Text := []
  parseOnly : Bool := false
  commands : List Text := []
  adapters : List Text := []
  installDir : Option Text := none
  name : Text := "cmdlang"
  noInit : Bool := false
  verbose : Bool := false
  jsonReports : Bool := false
  deriving DecidableEq, Repr

inductive Usage where
  | wrong
  | help
  deriving DecidableEq, Repr

def Usage.code : Usage → Nat
  | wrong => 2
  | help => 0

structure Found where
  flag : Option Flag
  spelling : Text
  value : Option Text
  deriving DecidableEq, Repr

inductive Reading where
  | plain
  | mark
  | option (found : Found)
  deriving DecidableEq, Repr

def candidates (argument : Text) : List Found :=
  if Text.startsWith "--" argument then
    let (start, value) :=
      match Text.cut? '=' argument with
      | some (start, value) => (start, some value)
      | none => (argument, none)
    spellings.filterMap fun (spelling, flag) =>
      if Text.startsWith start spelling then some ⟨some flag, spelling, value⟩ else none
  else
    spellings.filterMap fun (spelling, flag) =>
      if spelling = argument.take 2 then some ⟨some flag, spelling, some (argument.drop 2)⟩
      else if Text.startsWith argument spelling then some ⟨some flag, spelling, none⟩
      else none

def isNegativeNumber (argument : Text) : Bool :=
  let body := argument.drop 1
  let whole := body.takeWhile Text.isDecimal
  match body.drop whole.length with
  | [] => !whole.isEmpty
  | '.' :: fraction => !fraction.isEmpty && fraction.all Text.isDecimal
  | _ => false

def withValue? (argument : Text) : Option Found :=
  match Text.cut? '=' argument with
  | none => none
  | some (spelling, value) => (flagOf? spelling).map fun flag => ⟨some flag, spelling, some value⟩

def readArgument (argument : Text) : Except Usage Reading :=
  if argument = "--" then .ok .mark
  else if argument.head? ≠ some (.char '-') then .ok .plain
  else
    match flagOf? argument with
    | some flag => .ok (.option ⟨some flag, argument, none⟩)
    | none =>
      if argument.length = 1 then .ok .plain
      else
        match withValue? argument with
        | some found => .ok (.option found)
        | none =>
          match candidates argument with
          | _ :: _ :: _ => .error .wrong
          | [found] => .ok (.option found)
          | [] =>
            if isNegativeNumber argument || argument.contains ' ' then .ok .plain
            else .ok (.option ⟨none, argument, none⟩)

def readAll : List Text → Except Usage (List (Text × Reading))
  | [] => .ok []
  | argument :: rest => do
    match ← readArgument argument with
    | .mark => return (argument, .mark) :: rest.map (·, .plain)
    | reading => return (argument, reading) :: (← readAll rest)

def Arguments.set (args : Arguments) (flag : Flag) (value : Text) : Except Usage Arguments :=
  match flag with
  | .help => .error .help
  | .parseOnly => .ok { args with parseOnly := true }
  | .command => .ok { args with commands := args.commands ++ [value] }
  | .adapter => .ok { args with adapters := args.adapters ++ [value] }
  | .installDir => .ok { args with installDir := some value }
  | .name => .ok { args with name := value }
  | .noInit => .ok { args with noInit := true }
  | .verbose => .ok { args with verbose := true }
  | .jsonReports => .ok { args with jsonReports := true }

/-- Options that are run together: those before the last, the last, and the value written together
with it. The text is what follows the first option. -/
def runTogether (spelling : Text) (flag : Flag) (done : List Flag) :
    Text → Except Usage (List Flag × Flag × Option Text)
  | [] => .error .wrong
  | c :: more =>
    if flag.takesValue then .ok (done, flag, some (c :: more))
    else if Text.startsWith "--" spelling then .error .wrong
    else
      match flagOf? [.char '-', c] with
      | none => .error .wrong
      | some next =>
        if more.isEmpty then .ok (done ++ [flag], next, none)
        else runTogether [.char '-', c] next (done ++ [flag]) more

def expand (found : Found) (flag : Flag) : Except Usage (List Flag × Flag × Option Text) :=
  match found.value with
  | none => .ok ([], flag, none)
  | some [] => if flag.takesValue then .ok ([], flag, some []) else .error .wrong
  | some value => runTogether found.spelling flag [] value

/-- The state of reading: what was found so far, whether plain arguments have been taken, and
whether there were arguments that have no meaning. -/
structure Progress where
  args : Arguments := {}
  taken : Bool := false
  stray : Bool := false
  deriving DecidableEq, Repr

def Progress.take (progress : Progress) (group : List Text) : Progress :=
  if progress.taken then { progress with stray := progress.stray || !group.isEmpty }
  else { progress with args := { progress.args with plain := group.erase "--" }, taken := true }

def isPlain (item : Text × Reading) : Bool :=
  match item.2 with
  | .option _ => false
  | _ => true

/-- Works through the arguments; `budget` is at least their number. -/
def consume (progress : Progress) : Nat → List (Text × Reading) → Except Usage Progress
  | 0, _ => .ok progress
  | budget + 1, items =>
    match items with
    | [] => .ok progress
    | (_, .option found) :: rest =>
      match found.flag with
      | none => consume { progress with stray := true } budget rest
      | some flag => do
        let (flags, last, value) ← expand found flag
        let (value, rest) ←
          match value, last.takesValue, rest with
          | some value, _, rest => pure (value, rest)
          | none, false, rest => pure ([], rest)
          | none, true, (value, .plain) :: rest => pure (value, rest)
          | none, true, _ => throw .wrong
        let args ← flags.foldlM (fun args flag => args.set flag []) progress.args
        consume { progress with args := ← args.set last value } budget rest
    | items =>
      let group := items.takeWhile isPlain
      consume (progress.take (group.map (·.1))) budget (items.drop group.length)

def parse (arguments : List Text) : Except Usage Arguments := do
  let items ← readAll arguments
  let progress ← consume {} items.length items
  if progress.stray then throw .wrong
  return progress.args

def assignment? (argument : Text) : Option (Text × Text) :=
  match Text.cut? '=' argument with
  | some (name, value) => if !name.isEmpty && name.all Text.isNameChar then some (name, value) else none
  | none => none

structure Requests where
  scripts : List Text := []
  assignments : List (Text × Text) := []
  deriving DecidableEq, Repr

def Requests.add (requests : Requests) (argument : Text) : Requests :=
  match assignment? argument with
  | none => { requests with scripts := requests.scripts ++ [argument] }
  | some (name, value) =>
    if Text.lower name = "parse" then { requests with scripts := requests.scripts ++ [value] }
    else { requests with assignments := requests.assignments ++ [(name, value)] }

def Requests.of (arguments : List Text) : Requests := arguments.foldl Requests.add {}

end CommandScript.CommandLine
