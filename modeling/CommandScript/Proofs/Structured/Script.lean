import CommandScript.Proofs.Respect.Statements
import CommandScript.Proofs.Structured.Lines
import CommandScript.Proofs.Text.Unquoted

/-! Scripts as trees. A tree is made of lines that are one statement each, and it runs by recursion on
itself: there is no conditional stack, no body is collected and no block is counted. What a tree has in
common with the lines of a file is that every line is announced, also one that is passed over. -/

namespace CommandScript

variable {σ α : Type}

/-- The command that a line starts with; lines for the shell start with none. -/
def Interpreter.commandOf? (line : Text) : Option Command :=
  if line.head? = some (.char '!') then none else Command.of? (Text.cutOrAll ' ' line).1

structure ScriptLine extends BodyLine where
  single : Text.splitStatements text = .ok [text]
  uncommented : Text.stripComment text = text
  balanced : Text.checkBalance text = .ok ()

/-- Nothing in the text needs a closer look: no quote, no comment, and no end of a statement. -/
structure Text.Simple (text : Text) : Prop where
  filled : text ≠ []
  trimmed : Text.trim text = text
  unquoted : text.Unquoted
  whole : ∀ c ∈ text, c ≠ '#' ∧ Text.endsStatement c = false
  balanced : (Text.countMarks 0 0 (text.map Span.plain)).toOption = some (0, 0)

instance (text : Text) : Decidable text.Simple :=
  decidable_of_iff
    (text ≠ [] ∧ Text.trim text = text ∧ text.Unquoted ∧ (∀ c ∈ text, c ≠ '#' ∧ Text.endsStatement c = false) ∧
      (Text.countMarks 0 0 (text.map Span.plain)).toOption = some (0, 0))
    ⟨fun ⟨filled, trimmed, unquoted, whole, balanced⟩ => ⟨filled, trimmed, unquoted, whole, balanced⟩,
      fun ⟨filled, trimmed, unquoted, whole, balanced⟩ => ⟨filled, trimmed, unquoted, whole, balanced⟩⟩

def ScriptLine.simple (text : Text) (number : Nat) (simple : text.Simple) : ScriptLine where
  text := text
  number := number
  single := Text.splitStatements_unquoted simple.unquoted (fun c member => (simple.whole c member).2) simple.trimmed
    simple.filled
  uncommented := Text.stripComment_unquoted simple.unquoted fun member => (simple.whole '#' member).1 rfl
  balanced := by
    refine Text.checkBalance_unquoted simple.unquoted ?_
    have counted := simple.balanced
    cases result : Text.countMarks 0 0 (text.map Span.plain) with
    | error error => simp [result, Except.toOption] at counted
    | ok counts => simpa [result, Except.toOption] using counted

structure PlainLine extends ScriptLine where
  role : Flow.role? text = some .action
  plain : Interpreter.isPlain text

structure CommandLine (command : Command) extends ScriptLine where
  role : Flow.role? text = some .action
  command : Interpreter.commandOf? text = some command

structure TestLine (word : ConditionWord) extends ScriptLine where
  role : Flow.role? text = some (.test word)
  condition : Text
  tested : Flow.conditionText word text = .ok condition

structure BlockLine (role : Flow.Role) extends ScriptLine where
  role : Flow.role? text = some role

mutual

/-- A sequence of statements and blocks; only inside a loop it may leave the loop. -/
inductive Script : Bool → Type where
  | done {inLoop : Bool} : Script inLoop
  | plain {inLoop : Bool} (line : PlainLine) (next : Script inLoop) : Script inLoop
  | leave (line : CommandLine .leaveLoop) (next : Script true) : Script true
  | back {inLoop : Bool} (line : CommandLine .leaveFile) (next : Script inLoop) : Script inLoop
  | choice {inLoop : Bool} (line : TestLine .opening) (body : Script inLoop) (rest : Branches inLoop)
      (next : Script inLoop) : Script inLoop
  | loop {inLoop : Bool} (header : BlockLine .header) (body : Script true) (close : BlockLine .loopEnd)
      (next : Script inLoop) : Script inLoop

inductive Branches : Bool → Type where
  | close {inLoop : Bool} (line : BlockLine .chainEnd) : Branches inLoop
  | otherwise {inLoop : Bool} (line : BlockLine .otherwise) (body : Script inLoop)
      (close : BlockLine .chainEnd) : Branches inLoop
  | elseIf {inLoop : Bool} (line : TestLine .continuing) (body : Script inLoop)
      (rest : Branches inLoop) : Branches inLoop

end

mutual

def Script.lines {inLoop : Bool} : Script inLoop → List BodyLine
  | .done => []
  | .plain line next => line.toBodyLine :: next.lines
  | .leave line next => line.toBodyLine :: next.lines
  | .back line next => line.toBodyLine :: next.lines
  | .choice line body rest next => line.toBodyLine :: (body.lines ++ (rest.lines ++ next.lines))
  | .loop header body close next => header.toBodyLine :: (body.lines ++ (close.toBodyLine :: next.lines))

def Branches.lines {inLoop : Bool} : Branches inLoop → List BodyLine
  | .close line => [line.toBodyLine]
  | .otherwise line body close => line.toBodyLine :: (body.lines ++ [close.toBodyLine])
  | .elseIf line body rest => line.toBodyLine :: (body.lines ++ rest.lines)

end

mutual

def Script.nesting {inLoop : Bool} : Script inLoop → Nat
  | .done => 0
  | .plain _ next => next.nesting
  | .leave _ next => next.nesting
  | .back _ next => next.nesting
  | .choice _ body rest next => max body.nesting (max rest.nesting next.nesting)
  | .loop _ body _ next => max (body.nesting + 1) next.nesting

def Branches.nesting {inLoop : Bool} : Branches inLoop → Nat
  | .close _ => 0
  | .otherwise _ body _ => body.nesting
  | .elseIf _ body rest => max body.nesting rest.nesting

end

def LoopSource.remaining : LoopSource → List Text
  | .list fields position _ => fields.drop position
  | .range _ stop current =>
    (List.range (stop - current).toNat).map fun offset : Nat => Text.ofInt (current + 1 + offset)
  | .external _ _ => []

namespace Structured

/-- Announces a line and does what it stands for; an error gets the line's place. -/
def visit (env : Env σ) (line : BodyLine) (action : Run σ α) : Run σ α := do
  Run.modifyFrame ({ · with line := line.number })
  Run.modifyFrame ({ · with statement := line.text })
  Interpreter.emit env "before_line" [line.text]
  let value ← Run.onError action fun error => do
    let error := Interpreter.locate (← get).frame line.text error
    Interpreter.emit env "on_error" [error.kind.label]
    throw (.error error)
  Interpreter.emit env "after_line" [line.text]
  return value

def pass (env : Env σ) (lines : List BodyLine) : Run σ Unit :=
  lines.forM fun line => visit env line (pure ())

def runPlain (env : Env σ) (line : Text) : Run σ Unit :=
  Interpreter.runStatement env (fun _ => throw .exhausted) line

def openHeader (env : Env σ) (line : Text) : Run σ Loop := do
  Flow.openLoop env (← Run.ofCause (LoopHeader.parse line))

def overElements (name : Text) (body : Run σ Bool) : Nat → List Text → Run σ Answer
  | count, [] => do
    Run.put "for_index" (Text.ofNat count)
    let _ ← body
    return .noMore
  | count, element :: rest => do
    Run.put "for_index" (Text.ofNat count)
    if ← body then return .noMore
    Run.put name element
    overElements name body (count + 1) rest

def overSource (env : Env σ) (qualifier : Option Text) (type name : Text) (body : Run σ Bool) :
    Nat → Nat → Run σ Answer
  | 0, _ => throw .exhausted
  | passes + 1, count => do
    Run.put "for_index" (Text.ofNat count)
    if ← body then return .noMore
    let answer ← Flow.askSource env .next qualifier type name
    if answer = .more then overSource env qualifier type name body passes (count + 1) else return answer

def overLoop (env : Env σ) (loop : Loop) (body : Run σ Bool) : Run σ Answer :=
  match loop.source with
  | .external qualifier type => overSource env qualifier type loop.name body env.passes 1
  | source => overElements loop.name body 1 source.remaining

def reported (env : Env σ) (body : Run σ α) : Run σ α :=
  Run.onError body fun error => do
    Report.add env error
    Run.fail (.flow .body)

/-- Runs a loop whose first element is bound, and releases its source however the body ends. -/
def runLoop (env : Env σ) (loop : Loop) (number : Nat) (body : Run σ Bool) : Run σ Unit := do
  let answer ← Run.always
    (if loop.mode = .reading then Run.deeper 5 (overLoop env loop (reported env body)) else return .noMore)
    (do
      Run.modifyFrame ({ · with line := number })
      Flow.closeLoop env loop)
  if answer = .notFound then Run.fail (.flow .nextUndefined)
  if answer = .failed then
    Run.fail (.flow (.nextFailed (match loop.source with | .external _ type => type | _ => [])))

/-- Runs a part of a script, and announces the lines of another part that is passed over if it is taken. -/
def branch (env : Env σ) (taken : Bool) (body rest : Run σ Bool) (bodyLines restLines : List BodyLine) :
    Run σ Bool := do
  if taken then
    let left ← body
    pass env restLines
    return left
  else
    pass env bodyLines
    rest

def unlessLeft (env : Env σ) (left : Bool) (next : Run σ Bool) (lines : List BodyLine) : Run σ Bool := do
  if left then
    pass env lines
    return true
  else next

end Structured

open Structured

mutual

/-- Runs a script, and tells whether it left the loop it stands in. -/
def Script.exec (env : Env σ) {inLoop : Bool} : Script inLoop → Run σ Bool
  | .done => return false
  | .plain line next => do
    visit env line.toBodyLine (runPlain env line.text)
    next.exec env
  | .leave line next => do
    visit env line.toBodyLine (pure ())
    pass env next.lines
    return true
  | .back line next => do
    visit env line.toBodyLine Command.runLeaveFile
    next.exec env
  | .choice line body rest next => do
    let taken ← visit env line.toBodyLine (Interpreter.decideCondition env .opening line.condition)
    let left ← branch env taken (body.exec env) (rest.exec env) body.lines rest.lines
    unlessLeft env left (next.exec env) next.lines
  | .loop header body close next => do
    let loop ← visit env header.toBodyLine (openHeader env header.text)
    pass env body.lines
    visit env close.toBodyLine (runLoop env loop close.number (body.exec env))
    next.exec env

def Branches.exec (env : Env σ) {inLoop : Bool} : Branches inLoop → Run σ Bool
  | .close line => do
    visit env line.toBodyLine (pure ())
    return false
  | .otherwise line body close => do
    visit env line.toBodyLine (pure ())
    let left ← body.exec env
    pass env [close.toBodyLine]
    return left
  | .elseIf line body rest => do
    let taken ← visit env line.toBodyLine (Interpreter.decideCondition env .continuing line.condition)
    branch env taken (body.exec env) (rest.exec env) body.lines rest.lines

end

/-- What is made of the end of a script: an error is reported and ends it, and so does a return. -/
def Structured.finish (env : Env σ) : Except Exit Bool → Run σ Bool
  | .ok _ => return true
  | .error .returned => return false
  | .error (.error error) => do
    Report.add env error
    return false
  | .error exit => throw exit

/-- Runs a script as a file is run, and tells whether it came to its end. -/
def Script.run (env : Env σ) (script : Script false) : Run σ Bool := do
  finish env (← Run.attempt (script.exec env))

end CommandScript
