import CommandScript.Expr.Eval
import CommandScript.Print.Format

/-! The items of a print command: quoted texts, expressions in parentheses, and words or calls, each
of the latter with an optional format. -/

namespace CommandScript

inductive PrintItem where
  | literal (body : Text)
  | group (expression : Text)
  | word (expression : Text) (format : Option Text)
  | broken (error : Malformed)
  deriving DecidableEq, Repr

namespace Text

theorem cutParens?_length {s inside after : Text} (found : cutParens? s = some (inside, after)) :
    after.length < s.length := by
  unfold cutParens? at found
  obtain ⟨offset, closes, same⟩ := Option.map_eq_some_iff.mp found
  cases s with
  | nil => simp [matchingParen?, Span.scanWith, closingOffset] at closes
  | cons c rest =>
      simp only [Prod.mk.injEq] at same
      rw [← same.2]
      simp only [List.length_drop, List.length_cons]
      omega

end Text

namespace PrintItem

def readWord (command text : Text) : PrintItem × Text :=
  let ends := fun c => Text.isBlank c || c = '('
  let name := text.takeWhile (!ends ·)
  let after := text.dropWhile (!ends ·)
  if after.head? ≠ some (.char '(') then (word name none, after)
  else
    match Text.cutParens? after with
    | none => (broken (.printArguments command text), [])
    | some (inside, following) =>
      if (Text.trimLeft (after.drop 1)).head? = some (.char '%') then
        (word name (some (Text.trim inside)), following)
      else
        let call := name ++ "(" ++ inside ++ ")"
        if following.head? ≠ some (.char '(') then (word call none, following)
        else
          match Text.cutParens? following with
          | none => (broken (.printArguments command text), [])
          | some (format, rest) =>
            let format := Text.trim format
            if format.head? = some (.char '%') then (word call (some format), rest)
            else (broken (.printFormat command format), [])

/-- Reads the items of a line up to the first that cannot be read. -/
def scan (command : Text) : Text → List PrintItem
  | [] => []
  | c :: rest =>
    if Text.isBlank c then scan command rest
    else
      match Quote.of? c with
      | some quote =>
        match _found : Text.cut? quote.closing rest with
        | none => [broken (.printQuote command quote)]
        | some (body, after) => literal body :: scan command after
      | none =>
        if c = '(' then
          match _found : Text.cutParens? (c :: rest) with
          | none => [broken (.printGroup command)]
          | some (inside, after) => group inside :: scan command after
        else
          let (item, after) := readWord command (c :: rest)
          item :: scan command (rest.drop (rest.length - after.length))
termination_by s => s.length
decreasing_by
  · simp
  · have shorter := Text.cut?_length _found
    simp only [List.length_cons]; omega
  · exact Text.cutParens?_length _found
  · simp only [List.length_drop, List.length_cons]; omega

end PrintItem

structure PrintStyle where
  command : Text
  separator : Text
  verbatim : Bool
  deriving DecidableEq, Repr

namespace PrintStyle

def print : PrintStyle := ⟨"print", " ", false⟩

def printf : PrintStyle := ⟨"printf", " ", true⟩

def sprint : PrintStyle := ⟨"sprint", [], false⟩

def sprintf : PrintStyle := ⟨"sprintf", [], true⟩

variable {σ : Type}

def valueText (env : Env σ) (style : PrintStyle) (expression : Text) : Run σ Text := do
  let outcome ← Expr.evaluate env expression
  if outcome.answer = .notFound then
    Run.fail (.command (.valueUndefined style.command
      (Text.orElse outcome.value ("undefined variable: " ++ expression))))
  if !outcome.ok then
    Run.fail (.command (.valueFailed style.command
      (Text.orElse outcome.value (style.command ++ ": cannot interpret " ++ expression))))
  return outcome.toText

def itemText (env : Env σ) (style : PrintStyle) : PrintItem → Run σ Text
  | .literal body => pure (if style.verbatim then body else body ++ style.separator)
  | .group expression => do return (← style.valueText env expression) ++ style.separator
  | .word expression format => do
    let value ← style.valueText env expression
    match format with
    | none => return value ++ style.separator
    | some format =>
      if value = "true" ∨ value = "false" then return value ++ style.separator
      let formatted ← Run.ofExcept id (Print.formatValue value format style.command)
      return formatted ++ style.separator
  | .broken error => Run.fail (.malformed error)

def itemsText (env : Env σ) (style : PrintStyle) : List PrintItem → Run σ Text
  | [] => pure []
  | item :: rest => do
    let text ← style.itemText env item
    return text ++ (← style.itemsText env rest)

def dropLastBlank (s : Text) : Text := if s.getLast? = some (.char ' ') then s.dropLast else s

def render (env : Env σ) (style : PrintStyle) (text : Text) : Run σ Text := do
  return dropLastBlank (← style.itemsText env (PrintItem.scan style.command text))

end PrintStyle

end CommandScript
