import CommandScript.Error.Cause
import CommandScript.Text.Casing

/-! Conditional chains. Each open chain has one entry on a stack, which says whether the lines of its
current branch run and whether a later branch may still be taken. -/

namespace CommandScript

inductive Branch where
  | ifTrue
  | ifFalse
  | elseifTrue
  | elseifFalse
  | elseTrue
  | elseFalse
  | skip
  deriving DecidableEq, Repr

namespace Branch

def text : Branch → Text
  | ifTrue => "if_true"
  | ifFalse => "if_false"
  | elseifTrue => "elseif_true"
  | elseifFalse => "elseif_false"
  | elseTrue => "else_true"
  | elseFalse => "else_false"
  | skip => "skip"

def isSkipping : Branch → Bool
  | ifFalse | elseifFalse | elseFalse | skip => true
  | _ => false

def isTaken : Branch → Bool
  | ifTrue | elseifTrue => true
  | _ => false

def isPending : Branch → Bool
  | ifFalse | elseifFalse => true
  | _ => false

end Branch

namespace Flow

def isForeach (line : Text) : Bool :=
  Text.lower ((line.filter fun c => !Text.isBlank c).take 8) = "foreach("

def isWordLine (word : Text) (line : Text) : Bool :=
  let line := Text.lower line
  line = word || Text.startsWith (word ++ " ") line

def isEndfor (line : Text) : Bool := isWordLine "endfor" line

def isEndif (line : Text) : Bool := isWordLine "endif" line

def opensParen (s : Text) : Bool := (Text.trimLeft s).head? = some (.char '(')

def opensIf (line : Text) : Bool := (Text.afterKeyword? "if" (Text.trimLeft line)).any opensParen

def afterElseBlankIf? (s : Text) : Option Text := do
  let rest ← Text.afterKeyword? "else" s
  guard (rest.head?.any Text.isBlank)
  Text.afterKeyword? "if" (Text.trimLeft rest)

/-- The word of a line that tests a condition. Only the plain letters of `if` open a chain. -/
def conditionWord? (line : Text) : Option ConditionWord :=
  let line := Text.trimLeft line
  if (Text.afterKeyword? "if" line).any opensParen then
    some (if Text.lower (line.take 2) = "if" then .opening else .continuing)
  else if (Text.afterKeyword? "elseif" line).any opensParen ∨ (afterElseBlankIf? line).any opensParen then
    some .continuing
  else none

def conditionText (word : ConditionWord) (line : Text) : Except FlowError Text :=
  let after := ((Text.cut? '(' line).map (·.2)).getD line
  let inner := Text.trim after
  if inner = [] ∨ inner.head? = some (.char ')') then .error (.conditionMissing word)
  else
    match Text.cutLast? ')' after with
    | none => .error (.conditionOpen word)
    | some (text, _) => .ok (Text.trim text)

def replaceTop (branch : Branch) (conditions : List Branch) : List Branch := branch :: conditions.drop 1

inductive Verdict where
  | consumed (conditions : List Branch)
  | runs
  | failed (error : FlowError)
  /-- A condition has to be decided first. -/
  | asks (word : ConditionWord) (text : Text)
  deriving DecidableEq, Repr

def enter (word : ConditionWord) (taken : Bool) (conditions : List Branch) : List Branch :=
  match word with
  | .opening => (if taken then .ifTrue else .ifFalse) :: conditions
  | .continuing => replaceTop (if taken then .elseifTrue else .elseifFalse) conditions

/-- The stack after a condition could not be decided: the chain is given up. -/
def abandon (word : ConditionWord) (conditions : List Branch) : List Branch :=
  match word with
  | .opening => conditions
  | .continuing => replaceTop .skip conditions

/-- The stack after a condition was tried. Malformed text leaves it as it is. -/
def settle (word : ConditionWord) (decided : Except ScriptError Bool) (conditions : List Branch) :
    List Branch :=
  match decided with
  | .ok taken => enter word taken conditions
  | .error error => if error.isMalformed then conditions else abandon word conditions

/-- What happens at a condition, given the innermost entry. While a loop is being left, a condition
is taken to hold without being decided. -/
def testLine (leaving : Bool) (conditions : List Branch) (word : ConditionWord) (text : Text) : Verdict :=
  let current := conditions.head?
  let asks := if leaving then .consumed (enter word true conditions) else .asks word text
  match word with
  | .opening => if current.any Branch.isSkipping then .consumed (.skip :: conditions) else asks
  | .continuing =>
    if current = some .skip then .consumed conditions
    else if current.any Branch.isTaken then .consumed (replaceTop .skip conditions)
    else if current.any Branch.isPending then asks
    else .failed .unexpectedElseif

/-- Reads a line against the conditional stack, innermost entry first; `leaving` tells whether the
innermost loop is being left. -/
def judge (leaving : Bool) (conditions : List Branch) (line : Text) : Verdict :=
  let current := conditions.head?
  let word := Text.lower line
  if word = "else" then
    if current.any Branch.isPending then .consumed (replaceTop .elseTrue conditions)
    else if current.any Branch.isTaken then .consumed (replaceTop .skip conditions)
    else if current = some .skip then .consumed conditions
    else .failed .unexpectedElse
  else if isEndif line then
    if conditions = [] then .failed .unexpectedEndif else .consumed (conditions.drop 1)
  else if word = "elseif" ∨ word = "else if" then .failed (.bareElseif line)
  else
    match conditionWord? line with
    | none => if current.any Branch.isSkipping then .consumed conditions else .runs
    | some word =>
      match conditionText word line with
      | .error error => .failed error
      | .ok text => testLine leaving conditions word text

structure BlockCount where
  loops : Int
  ifs : Int
  deriving DecidableEq, Repr

namespace BlockCount

def pass (count : BlockCount) (line : Text) : BlockCount :=
  if isForeach line then { count with loops := count.loops + 1 }
  else if opensIf line then { count with ifs := count.ifs + 1 }
  else if isEndif line then { count with ifs := count.ifs - 1 }
  else count

def track (count : BlockCount) (line : Text) : BlockCount × Except FlowError Bool :=
  if isEndfor line then
    let count := { count with loops := count.loops - 1 }
    if count.loops = 0 then
      if count.ifs > 0 then (count, .error .missingEndif) else (count, .ok true)
    else (count.pass line, .ok false)
  else (count.pass line, .ok false)

end BlockCount

end Flow

end CommandScript
