import CommandScript.Session

/-! Arguments that name files: the script that `parse` runs, and the files that are opened for
writing. -/

namespace CommandScript

structure ScriptTarget where
  path : Text
  block : Option Text
  deriving DecidableEq, Repr

namespace ScriptTarget

def splitBlock (text : Text) : Text × Option Text :=
  match Text.cut? '\x7b' text with
  | none => (text, none)
  | some (before, after) =>
    let block := ((Text.cutLast? '\x7d' after).map (·.1)).getD after
    (Text.trim before, some (Text.trim block))

def quotedPath? (text : Text) : Option Text :=
  match text with
  | [] => none
  | first :: rest =>
    if (Quote.ofStraight? first).isSome then
      some (if rest.getLast? = some first then rest.dropLast else rest)
    else none

/-- A bare word is the name of a variable that holds the path, or the path itself. -/
def wordPath (lookup : Text → Except Failure (Option Text)) (text : Text) : Except Failure Text :=
  let word := Text.firstWord text
  if word.isEmpty then .ok []
  else (lookup word).map fun stored => (stored.map Text.stripQuotes).getD word

def read (lookup : Text → Except Failure (Option Text)) (argument : Text) : Except Failure ScriptTarget :=
  let text := Text.trim argument
  if text.isEmpty then .error (.cause (.command .missingScript))
  else
    let (text, block) := splitBlock text
    match (quotedPath? text).elim (wordPath lookup text) Except.ok with
    | .error failure => .error failure
    | .ok path =>
      if path.isEmpty then .error (.cause (.command .missingScript))
      else .ok ⟨path, block.filter (!·.isEmpty)⟩

end ScriptTarget

structure FileArguments where
  path : Option Text := none
  append : Bool := false
  deriving DecidableEq, Repr

namespace FileArguments

def addWord (command : Text) (args : FileArguments) (word : Text) : Except CommandError FileArguments :=
  match Text.cut? '=' word with
  | some (key, value) =>
    let key := Text.lower key
    if key = "append" then
      match truthOf value with
      | some append => .ok { args with append }
      | none => .error (.appendValue command value)
    else if key = "file" ∨ key = "filename" then .ok { args with path := some value }
    else .error (.fileArgument command word)
  | none =>
    if args.path.isNone then .ok { args with path := some word }
    else .error (.fileArgument command word)

def read (command rest : Text) : Except CommandError (Text × Bool) := do
  if rest.isEmpty then throw (.missing command "file argument")
  let args ← (Text.words rest).foldlM (addWord command) {}
  let path := args.path.getD []
  if path.isEmpty then throw (.missing command "file argument")
  return (path, args.append)

variable {σ : Type}

def target (env : Env σ) (command rest : Text) : Run σ (Text × Bool) := do
  let (path, append) ← Run.ofExcept (fun error => .error { cause := .command error }) (read command rest)
  let stored ← if path.head?.any Quote.isOpening then pure none else Run.readVariable path
  return (Path.expandHome env.home (Text.stripQuotes (stored.getD path)), append)

def checkPath (path : Text) : Run σ Unit := do
  if (Path.bytes? path).isNone then throw (.fault .half)
  if path.contains '\x00' then throw (.fault .pathText)

def openFile (command path : Text) (append : Bool) : Run σ Handle := do
  checkPath path
  match Handle.openIn (← get).files path append with
  | .ok (handle, files) =>
    modify ({ · with files })
    return handle
  | .error error => Run.fail (.command (.cannotOpen command path error.text))

end FileArguments

end CommandScript
