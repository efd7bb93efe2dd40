import CommandScript.Error.Cause
import CommandScript.Text.Casing
import CommandScript.Text.Letter
import CommandScript.Value

/-! Names that commands store values under. -/

namespace CommandScript.Names

def reserved : List Text :=
  (["for_index", "standard_input", "parse_only", "true", "false"] : List Text) ++
    namedConstants.map (·.1)

def isReserved (name : Text) : Bool := reserved.contains (Text.lower name)

def badChar? (name : Text) : Option CodePoint := name.find? (!Text.isNameChar ·)

def checkStored (name : Text) : Except NameError Unit :=
  match name.head? with
  | none => .error .missing
  | some first =>
    if !Text.isLetter first then .error .firstNotAlphabetic
    else
      match badChar? name with
      | some c => .error (.character c)
      | none => if isReserved name then .error (.reserved name) else .ok ()

def checkAssigned (name : Text) : Except NameError Unit :=
  match name.head? with
  | none => .error .missing
  | some first =>
    match badChar? name with
    | some c => .error (.assignedCharacter c)
    | none =>
      if Text.isDigitChar first then .error (.firstDigit name)
      else if isReserved name then .error (.reserved name)
      else .ok ()

def splitAssignment? (line : Text) : Option (Text × Text) :=
  let start := Text.trimLeft line
  let name := start.takeWhile fun c => !(Text.isBlank c || c = '=')
  match Text.trimLeft (start.drop name.length) with
  | '=' :: value => some (name, value)
  | _ => none

end CommandScript.Names
