import CommandScript.Print.Items

/-! Words of a command that stand for values. A text is cut into pieces that are kept and words that
are replaced. -/

namespace CommandScript

inductive Piece where
  | verbatim (text : Text)
  | word (text : Text)
  deriving DecidableEq, Repr

namespace Piece

def cutStoredWord : Text → Text × Text
  | [] => ([], [])
  | c :: rest =>
    if Text.isBlank c || Quote.isOpening c || c = ',' then ([], c :: rest)
    else if c = '(' then
      match _found : Text.cutParens? (c :: rest) with
      | none => (c :: rest, [])
      | some (inside, after) =>
        let (more, remaining) := cutStoredWord after
        ("(" ++ inside ++ ")" ++ more, remaining)
    else
      let (more, remaining) := cutStoredWord rest
      (c :: more, remaining)
termination_by s => s.length
decreasing_by
  · exact Text.cutParens?_length _found
  · simp

/-- The pieces of a text to be stored: quoted texts without their quotes, commas and words. An open
quote runs to the end. -/
def ofStored : Text → List Piece
  | [] => []
  | c :: rest =>
    if Text.isBlank c then ofStored rest
    else
      match Quote.of? c with
      | some quote =>
        match _found : Text.cut? quote.closing rest with
        | none => [verbatim rest]
        | some (body, after) => verbatim body :: ofStored after
      | none =>
        if c = ',' then verbatim "," :: ofStored rest
        else
          let (text, after) := cutStoredWord (c :: rest)
          word text :: ofStored (rest.drop (rest.length - after.length))
termination_by s => s.length
decreasing_by
  · simp
  · have shorter := Text.cut?_length _found
    simp only [List.length_cons]; omega
  · simp
  · simp only [List.length_drop, List.length_cons]; omega

def endsArgument (c : CodePoint) : Bool := Text.isBlank c || c = '=' || Quote.isOpening c

def isKey (after : Text) : Bool :=
  match Text.trimLeft after with
  | '=' :: '=' :: _ => false
  | '=' :: _ => true
  | _ => false

/-- The pieces of a command's arguments: blanks, equals signs, quoted texts and keys are kept. An
open quote runs to the end. -/
def ofArguments : Text → List Piece
  | [] => []
  | c :: rest =>
    if Text.isBlank c || c = '=' then verbatim [c] :: ofArguments rest
    else
      match Quote.of? c with
      | some quote =>
        match _found : Text.cut? quote.closing rest with
        | none => [verbatim (c :: rest)]
        | some (body, after) => verbatim (c :: body ++ [quote.closing]) :: ofArguments after
      | none =>
        let text := c :: rest.takeWhile (!endsArgument ·)
        let after := rest.drop (text.length - 1)
        (if isKey after then verbatim text else word text) :: ofArguments after
termination_by s => s.length
decreasing_by
  · simp
  · have shorter := Text.cut?_length _found
    simp only [List.length_cons]; omega
  · simp only [List.length_drop, List.length_cons]; omega

variable {σ : Type}

def texts (replace : Text → Run σ Text) : List Piece → Run σ Text
  | [] => pure []
  | verbatim text :: rest => do return text ++ (← texts replace rest)
  | word text :: rest => do
    let value ← replace text
    return value ++ (← texts replace rest)

end Piece

namespace Words

variable {σ : Type}

/-- The text of a word to be stored. Named constants and times become numbers of sixteen digits. -/
def storedWord (env : Env σ) (command word : Text) : Run σ Text := do
  if Number.isNumber word then return word
  if let some x := ← Run.ofFault (parseDouble word) then
    return Number.render (Number.generalText 16 false) x
  let outcome ← Expr.evaluate env word
  if outcome.answer = .notFound then Run.fail (.command (.wordUndefined command word))
  if !outcome.ok then
    Run.fail (.command (.valueFailed command
      (Text.orElse outcome.value (command ++ ": cannot interpret " ++ word))))
  return outcome.toText

def concatenate (env : Env σ) (command text : Text) : Run σ Text :=
  Piece.texts (storedWord env command) (Piece.ofStored text)

def argumentWord (env : Env σ) (word : Text) : Run σ Text := do
  let lowered := Text.lower word
  if lowered = "true" ∨ lowered = "false" then return word
  if (← Run.ofFault (parseDouble word)).isSome then return word
  Run.onError (do Run.ofFault (← Expr.valueOf env word).render) fun error =>
    if error.kind = .variableNotFound ∨ error.isMalformed then return word else throw (.error error)

def substitute (env : Env σ) (text : Text) : Run σ Text :=
  Piece.texts (argumentWord env) (Piece.ofArguments text)

end Words

end CommandScript
