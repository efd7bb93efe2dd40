import CommandScript.Alias
import CommandScript.Flow.Branch
import CommandScript.Text.Statement

/-! Loops: their headers, and the state of a loop whose body is being read or replayed. -/

namespace CommandScript

inductive LoopHeader where
  | list (name : Text) (literal : Option Text)
  | range (name first last : Text)
  | external (name : Text) (qualifier : Option Text) (type : Text)
  deriving DecidableEq, Repr

namespace LoopHeader

/-- The texts between commas that stand outside quotes, parentheses and brackets. -/
def argumentPieces (depth : Int) : List Span → Except Malformed (List Text)
  | [] => .ok [[]]
  | .unclosed quote _ :: _ => .error (.unclosedQuote quote)
  | .quoted quote body :: rest =>
    (argumentPieces depth rest).map (Text.prepend (Span.quoted quote body).text)
  | .plain c :: rest =>
    if c = '(' ∨ c = '[' then (argumentPieces (depth + 1) rest).map (Text.prepend [c])
    else if c = ')' ∨ c = ']' then (argumentPieces (depth - 1) rest).map (Text.prepend [c])
    else if c = ',' ∧ depth = 0 then (argumentPieces depth rest).map ([] :: ·)
    else (argumentPieces depth rest).map (Text.prepend [c])

def splitArguments (text : Text) : Except Malformed (List Text) :=
  (argumentPieces 0 (Span.scan text)).map (·.map Text.trim)

def ofSource (source name : Text) : Except Cause LoopHeader :=
  if source.head?.any Quote.isOpening then
    .ok (.list name (some (Text.stripChars "\x7b\x7d" (Text.stripQuotes source))))
  else if source.contains ' ' then .error (.flow .header)
  else
    match Text.cutLast? '.' source with
    | none => .ok (.external name none source)
    | some (qualifier, type) =>
      if type = [] then .error (.flow .header) else .ok (.external name (some qualifier) type)

def ofArguments : List Text → Except Cause LoopHeader
  | [name] => .ok (.list name none)
  | [source, name] =>
    if source = [] ∨ name = [] ∨ name.contains ' ' then .error (.flow .header)
    else ofSource source name
  | [first, last, name] =>
    if name = [] then .error (.flow .indexName) else .ok (.range name first last)
  | _ => .error (.flow .header)

def parse (line : Text) : Except Cause LoopHeader :=
  let after := ((Text.cut? '(' line).map (·.2)).getD line
  match Text.trimLeft after with
  | [] => .error (.flow .header)
  | first :: _ =>
    if first = '.' ∨ first = ',' then .error (.flow .header)
    else
      match Text.cutLast? ')' after with
      | none => .error (.flow .headerOpen)
      | some (inside, _) =>
        match splitArguments (Text.trim inside) with
        | .error error => .error (.malformed error)
        | .ok args => ofArguments args

end LoopHeader

inductive LoopMode where
  | replaying
  | reading
  | dropping
  | leaving
  deriving DecidableEq, Repr

def LoopMode.text : LoopMode → Text
  | replaying => "none"
  | reading => "read"
  | dropping => "skip"
  | leaving => "break"

inductive LoopSource where
  | list (fields : List Text) (position : Nat) (saved : Text)
  | range (start stop current : Int)
  | external (qualifier : Option Text) (type : Text)
  deriving DecidableEq, Repr

structure BodyLine where
  text : Text
  number : Nat
  deriving DecidableEq, Repr

structure Loop where
  name : Text
  source : LoopSource
  mode : LoopMode
  lines : List BodyLine := []
  aliases : AliasTable := []
  serial : Nat := 0
  deriving DecidableEq, Repr

structure SourceKey where
  qualifier : Option Text
  type : Text
  name : Text
  deriving DecidableEq, Repr

namespace Loop

def isCollecting (loop : Loop) : Bool := loop.mode = .reading || loop.mode = .dropping

def sourceKey? (loop : Loop) : Option SourceKey :=
  match loop.source with
  | .external qualifier type => some ⟨qualifier, type, loop.name⟩
  | _ => none

end Loop

inductive LoopStep where
  | opened (source : Option SourceKey)
  | released (source : Option SourceKey)
  /-- The loop has ended, but another one was taken from the stack in its place. -/
  | kept
  /-- The loop was taken from the stack in the place of one that ended. -/
  | displaced
  /-- The script was left with the loop on its stack. -/
  | lost
  deriving DecidableEq, Repr

structure LoopEvent where
  serial : Nat
  step : LoopStep
  deriving DecidableEq, Repr

namespace LoopSource

def label (qualifier : Option Text) (type : Text) : Text :=
  match qualifier with
  | some word => if word.isEmpty then type else word ++ "." ++ type
  | none => type

end LoopSource

inductive SourceVerb where
  | start
  | next
  | stop
  deriving DecidableEq, Repr

namespace SourceVerb

def text : SourceVerb → Text
  | start => "start"
  | next => "next"
  | stop => "stop"

def requestName (verb : SourceVerb) (qualifier : Option Text) (type name : Text) : Text :=
  LoopSource.label qualifier ("foreach_" ++ verb.text ++ "_" ++ type ++ ":" ++ name)

end SourceVerb

end CommandScript
