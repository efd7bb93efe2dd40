import CommandScript.Session
import CommandScript.Text.Escape

/-! Reports of script errors, as text and as a JSON document. -/

namespace CommandScript

inductive Document where
  | null
  | number (n : Nat)
  | text (s : Text)
  | list (items : List Document)
  | fields (entries : List (Text × Document))

namespace Document

/-- A character beyond the first plane is written as two code units. -/
def unitEscapes (c : CodePoint) : Text :=
  if c.toNat < 0x10000 then "\\u" ++ Text.hex 4 c.toNat
  else
    let offset := c.toNat - 0x10000
    "\\u" ++ Text.hex 4 (0xD800 + offset / 0x400) ++ "\\u" ++ Text.hex 4 (0xDC00 + offset % 0x400)

def escape (c : CodePoint) : Text :=
  if c = '"' then "\\\""
  else if c = '\\' then "\\\\"
  else if c = '\n' then "\\n"
  else if c = '\r' then "\\r"
  else if c = '\t' then "\\t"
  else if c = '\x08' then "\\b"
  else if c = '\x0c' then "\\f"
  else if 32 ≤ c.toNat ∧ c.toNat < 127 then [c]
  else unitEscapes c

def quote (s : Text) : Text := "\"" ++ s.flatMap escape ++ "\""

def newline (indent : Nat) : Text := .char '\n' :: List.replicate indent (CodePoint.char ' ')

mutual

def render (indent : Nat) : Document → Text
  | null => "null"
  | number n => Text.ofNat n
  | text s => quote s
  | list [] => "[]"
  | list items => "[" ++ renderItems (indent + 2) items ++ newline indent ++ "]"
  | fields [] => "\x7b\x7d"
  | fields entries => "\x7b" ++ renderFields (indent + 2) entries ++ newline indent ++ "\x7d"

def renderItems (indent : Nat) : List Document → Text
  | [] => []
  | [item] => newline indent ++ render indent item
  | item :: rest => newline indent ++ render indent item ++ "," ++ renderItems indent rest

def renderFields (indent : Nat) : List (Text × Document) → Text
  | [] => []
  | [(key, value)] => newline indent ++ quote key ++ ": " ++ render indent value
  | (key, value) :: rest =>
    newline indent ++ quote key ++ ": " ++ render indent value ++ "," ++ renderFields indent rest

end

end Document

namespace Report

def frameName (index : Nat) : Text := if index = 0 then "<top-level>" else "parse"

def frameLines (index : Nat) (frame : Frame) : List Text :=
  ("  File \"" ++ frame.fileName ++ "\", line " ++ Text.ofNat frame.line ++ ", in " ++ frameName index) ::
    (if frame.statement.isEmpty then [] else ["    " ++ frame.statement])

def variablesLine (store : Store) : Text :=
  "    Variables: " ++ Text.join ", " (store.snapshot.map fun (name, value) => name ++ "=" ++ value)

def errorLine (error : ScriptError) : Text :=
  error.kind.label ++ ": " ++ error.message ++ " (construct: " ++
    Text.orElse (error.construct.getD []) "syntax" ++ ")"

variable {σ : Type}

def text (session : Session σ) (verbose : Bool) (error : ScriptError) : Text :=
  Text.join "\n"
    ([("Traceback (most recent call last):" : Text)] ++
      (session.frames.mapIdx frameLines).flatten ++
      (if verbose then [variablesLine session.store] else []) ++
      [errorLine error])

def placeFields (file : Text) (line : Nat) (statement : Text) : Document :=
  .fields [("file", .text file), ("line", .number line), ("statement", .text statement)]

def frameDocument (index : Nat) (frame : Frame) : Document :=
  .fields
    [("frame_index", .number index), ("name", .text (frameName index)),
     ("source_location", placeFields frame.fileName frame.line frame.statement)]

def optional (word : Option Text) : Document :=
  match word with
  | some word => .text word
  | none => .null

def placeEntries (place : Option Place) : List (Text × Document) :=
  match place with
  | some place => [("location", placeFields place.file place.line place.statement)]
  | none => []

def errorDocument (error : ScriptError) : Document :=
  let known : List (Text × Document) :=
    [("type", .text error.kind.label), ("message", .text error.message),
     ("construct", optional error.construct)]
  .fields (known ++ placeEntries error.place)

def document (session : Session σ) (error : ScriptError) : Document :=
  .fields
    [("error", errorDocument error),
     ("frames", .list (session.frames.mapIdx frameDocument))]

def add (env : Env σ) (error : ScriptError) : Run σ Unit := do
  let session ← get
  Run.report (text session env.options.verbose error)
  if env.options.jsonReports then Run.report ((document session error).render 0)

end Report

end CommandScript
