import CommandScript.Error.Kind
import CommandScript.Error.Malformed
import CommandScript.Text.Digit

/-! Script errors by cause. Each area of the language has its own causes; the wording, the family
and the construct that a report names are functions of the cause. -/

namespace CommandScript

inductive StoreError where
  | undefined (name : Text)
  | openIndex (name : Text)
  | afterIndex (name : Text)
  | indexText (index name : Text)
  | indexRange (name : Text)
  | exportName (name : Text)
  | exportUndefined (name : Text)
  deriving DecidableEq, Repr

namespace StoreError

def message : StoreError → Text
  | undefined name => "undefined variable: " ++ name
  | openIndex name => "missing ']': " ++ name
  | afterIndex name => "invalid reference after ']': " ++ name
  | indexText index name => "invalid index " ++ index ++ " in " ++ name
  | indexRange name => "invalid index in " ++ name
  | exportName name => "Invalid export variable name: " ++ name
  | exportUndefined name => "export variable " ++ name ++ " has not been set."

def kind : StoreError → ErrorKind
  | undefined _ | exportUndefined _ => .variableNotFound
  | openIndex _ | afterIndex _ | indexText _ _ | indexRange _ => .arrayIndex
  | exportName _ => .runtime

def construct : StoreError → Text
  | undefined _ => "variable"
  | openIndex _ | afterIndex _ | indexText _ _ | indexRange _ => "array"
  | exportName _ | exportUndefined _ => "export"

end StoreError

inductive AliasError where
  | missing
  | reserved (name : Text)
  | value (text : Text)
  deriving DecidableEq, Repr

def AliasError.message : AliasError → Text
  | missing => "alias: missing argument"
  | reserved name => "alias: " ++ name ++ " is a reserved name."
  | value text => "alias: name contains non-alphanumeric, non-'_', non-'.' char: " ++ text

inductive ConditionWord where
  | opening
  | continuing
  deriving DecidableEq, Repr

def ConditionWord.text : ConditionWord → Text
  | opening => "if"
  | continuing => "elseif"

inductive Bound where
  | start
  | stop
  deriving DecidableEq, Repr

def Bound.text : Bound → Text
  | start => "start"
  | stop => "end"

inductive FlowError where
  | missingEndif
  | unexpectedElse
  | unexpectedElseif
  | unexpectedEndif
  | unexpectedEndfor
  | unexpectedBreak
  | unexpectedReturn
  | bareElseif (line : Text)
  | conditionMissing (word : ConditionWord)
  | conditionOpen (word : ConditionWord)
  | conditionMalformed (word : ConditionWord) (message : Text)
  | header
  | headerOpen
  | indexName
  | boundUndefined (bound : Bound) (text : Text)
  | boundText (bound : Bound) (text : Text)
  | notAString (name : Text)
  | sourceType (label : Text)
  | sourceRefused (label name : Text)
  | verbFailed (verb message : Text)
  | nextUndefined
  | nextFailed (label : Text)
  | body
  deriving DecidableEq, Repr

namespace FlowError

def message : FlowError → Text
  | missingEndif => "missing endif."
  | unexpectedElse => "unexpected \"else\""
  | unexpectedElseif => "unexpected \"elseif\""
  | unexpectedEndif => "unexpected \"endif\""
  | unexpectedEndfor => "unexpected \"endfor\"."
  | unexpectedBreak => "unexpected 'break' outside foreach"
  | unexpectedReturn => "return: not inside a parsed file"
  | bareElseif line => line ++ ": missing argument"
  | conditionMissing word => "missing \"" ++ word.text ++ "\" argument"
  | conditionOpen word => "missing ')' after \"" ++ word.text ++ "\""
  | conditionMalformed word message => word.text ++ ": " ++ message
  | header => "foreach: argument syntax error"
  | headerOpen => "foreach: missing ')'"
  | indexName => "foreach: missing index name"
  | boundUndefined bound text => "foreach: " ++ bound.text ++ " index: " ++ text ++ " is not defined"
  | boundText bound text => "foreach: cannot interpret " ++ bound.text ++ " index: " ++ text
  | notAString name => "foreach: " ++ name ++ " is not a defined string"
  | sourceType label => "foreach: invalid argument type " ++ label
  | sourceRefused label name => "foreach: cannot interpret argument: " ++ label ++ "," ++ name
  | verbFailed verb message => "foreach: " ++ verb ++ " failed: " ++ message
  | nextUndefined => "foreach: undefined variable"
  | nextFailed label => "foreach: cannot get next " ++ label
  | body => "foreach: syntax error"

def kind : FlowError → ErrorKind
  | conditionMalformed _ _ | verbFailed _ _ => .runtime
  | _ => .controlFlow

def construct : FlowError → Text
  | missingEndif | unexpectedEndfor => "endfor"
  | unexpectedElse => "else"
  | unexpectedElseif | bareElseif _ => "elseif"
  | unexpectedEndif => "endif"
  | unexpectedBreak => "break"
  | unexpectedReturn => "return"
  | conditionMissing word | conditionOpen word | conditionMalformed word _ => word.text
  | _ => "foreach"

end FlowError

inductive EvalError where
  | operand (shown operator : Text)
  | divisionByZero
  | negation (shown : Text)
  | inversion (shown : Text)
  | condition (text : Text)
  | index (shown name : Text)
  | unresolved (message : Text)
  | resolverFailed (name message : Text)
  | functionFailed (name message : Text)
  | unknownFunction (name : Text)
  | functionRefused (name message : Text)
  deriving DecidableEq, Repr

namespace EvalError

def message : EvalError → Text
  | operand shown operator => "cannot interpret: " ++ shown ++ " " ++ operator
  | divisionByZero => "division by zero"
  | negation shown => "cannot interpret: -" ++ shown
  | inversion shown => "cannot interpret: !" ++ shown
  | condition text => "cannot interpret: " ++ text
  | index shown name => "invalid index " ++ shown ++ " in " ++ name ++ "[]"
  | unresolved message => message
  | resolverFailed name message => "variable resolver failed for " ++ name ++ ": " ++ message
  | functionFailed name message => "function " ++ name ++ " failed: " ++ message
  | unknownFunction name => "unknown function: " ++ name
  | functionRefused _ message => "function call failed: " ++ message

def kind : EvalError → ErrorKind
  | divisionByZero => .argument
  | index _ _ => .arrayIndex
  | unknownFunction _ => .unknownFunction
  | _ => .runtime

def construct : EvalError → Text
  | operand _ operator => operator
  | divisionByZero => "/"
  | negation _ => "-"
  | inversion _ => "!"
  | condition _ => "if"
  | index _ _ => "array"
  | unresolved _ => "variable"
  | resolverFailed _ _ | functionFailed _ _ => "adapter"
  | unknownFunction name | functionRefused name _ => name

end EvalError

inductive ArgumentError where
  | count (needed : Nat)
  | oneOrThree
  | notNumeric
  | secondNotNumeric
  | notInteger (position : Nat)
  | notString
  | notBuffer
  | notBufferType
  | notTime
  | outOfDomain
  | outOfRange
  | nanInteger
  | infiniteInteger
  | noFile
  | missing
  | missingAny
  | tooMany
  | type
  | integerRange
  | startRange
  | startLow
  | startHigh
  | endBeforeStart
  | endHigh
  | positionLow (start : Int)
  | positionHigh (start : Int) (size : Nat)
  | countLow (amount : Int)
  | countHigh (amount : Int) (size : Nat)
  deriving DecidableEq, Repr

def ArgumentError.message : ArgumentError → Text
  | count needed =>
    "need " ++ Text.ofNat needed ++ (if needed = 1 then (" argument" : Text) else " arguments")
  | oneOrThree => "need 1 or 3 arguments"
  | notNumeric => "cannot evaluate argument numerically"
  | secondNotNumeric => "cannot evaluate second argument numerically"
  | notInteger position => "expecting integer for argument " ++ Text.ofNat position
  | notString => "expecting string argument"
  | notBuffer => "argument 1 is invalid type"
  | notBufferType => "expecting buffer argument"
  | notTime => "cannot parse argument"
  | outOfDomain => "math domain error"
  | outOfRange => "math range error"
  | nanInteger => "cannot convert float NaN to integer"
  | infiniteInteger => "cannot convert float infinity to integer"
  | noFile => "file not open"
  | missing => "missing argument"
  | missingAny => "missing argument(s)"
  | tooMany => "too many arguments"
  | type => "invalid argument type"
  | integerRange => "argument out of range"
  | startRange => "first argument out of range"
  | startLow => "start < 1"
  | startHigh => "start > array length"
  | endBeforeStart => "end < start"
  | endHigh => "end > array length"
  | positionLow start => "start(" ++ Text.ofInt start ++ ") < 1"
  | positionHigh start size =>
    "start(" ++ Text.ofInt start ++ ") > array length(" ++ Text.ofNat size ++ ")"
  | countLow amount => "number of elements(" ++ Text.ofInt amount ++ ") < 0"
  | countHigh amount size =>
    "number of elements(" ++ Text.ofInt amount ++ ") > array length(" ++ Text.ofNat size ++ ")"

inductive FormatError where
  | notATime (text : Text)
  | invalid (format : Text)
  | notAnInteger (format text : Text)
  | notANumber (format text : Text)
  deriving DecidableEq, Repr

def FormatError.message : FormatError → Text
  | notATime text => "cannot format " ++ text ++ " as a time"
  | invalid format => "invalid format: " ++ format
  | notAnInteger format text => "expecting integer for format " ++ format ++ ": " ++ text
  | notANumber format text => "expecting number for format " ++ format ++ ": " ++ text

inductive NameError where
  | missing
  | firstNotAlphabetic
  | character (c : CodePoint)
  | assignedCharacter (c : CodePoint)
  | firstDigit (name : Text)
  | reserved (name : Text)
  | missingValue (name : Text)
  | quotedValue (name : Text)
  | notANumber (shown : Text)
  deriving DecidableEq, Repr

def NameError.message : NameError → Text
  | missing => "missing name"
  | firstNotAlphabetic => "first character of name is not alphabetic"
  | character c => "name contains non-alphanumeric, non-underscore char: " ++ [c]
  | assignedCharacter c => "name contains non-alphanumeric, non-'_', non-'.' char: " ++ [c]
  | firstDigit name => "name begins with a digit: " ++ name
  | reserved name => name ++ " is a reserved name"
  | missingValue name => "missing value for " ++ name
  | quotedValue name => "use set for string values: " ++ name
  | notANumber shown => "not a number: " ++ shown

inductive CommandError where
  | missing (command what : Text)
  | name (command : Text) (error : NameError)
  | logical (text : Text)
  | wordUndefined (command word : Text)
  | valueUndefined (command message : Text)
  | valueFailed (command message : Text)
  | appendValue (command value : Text)
  | fileArgument (command token : Text)
  | cannotOpen (command path reason : Text)
  | cannotParse (path reason : Text)
  | missingScript
  | exitCode (text : Text)
  | shell (message : Text)
  | waitArgument
  | pathsFlag
  | dispatchFailed (command message : Text)
  | dispatchRefused (command message : Text)
  | unknownVariable (command : Text)
  | unknownCommand (command : Text)
  | hookFailed (event message : Text)
  deriving DecidableEq, Repr

namespace CommandError

def message : CommandError → Text
  | missing command what => command ++ ": missing " ++ what
  | name command error => command ++ ": " ++ error.message
  | logical text => "setb: cannot interpret logical expression: " ++ text
  | wordUndefined command word => command ++ ": " ++ word ++ " is not defined."
  | valueUndefined _ message | valueFailed _ message => message
  | appendValue command value => command ++ ": invalid append value: " ++ value
  | fileArgument command token => command ++ ": invalid argument: " ++ token
  | cannotOpen command path reason => command ++ ": cannot open " ++ path ++ "\n" ++ reason
  | cannotParse path reason => "parse: cannot open file: " ++ path ++ "\n" ++ reason
  | missingScript => "parse: missing file argument."
  | exitCode text => "quit: invalid exit code: " ++ text
  | shell message => "system failed: " ++ message
  | waitArgument => "wait: invalid argument"
  | pathsFlag => "relative_file_paths: expecting true or false"
  | dispatchFailed command message => command ++ ": command failed: " ++ message
  | dispatchRefused _ message => message
  | unknownVariable command => "predefined variable not found: " ++ command
  | unknownCommand command => "command not found: " ++ command
  | hookFailed event message => "Adapter hook '" ++ event ++ "' failed: " ++ message

def kind : CommandError → ErrorKind
  | missing _ _ | name _ _ | appendValue _ _ | fileArgument _ _ | exitCode _ | waitArgument
  | pathsFlag | dispatchRefused _ _ => .argument
  | wordUndefined _ _ | valueUndefined _ _ => .variableNotFound
  | cannotOpen _ _ _ | cannotParse _ _ | missingScript => .scriptFile
  | unknownVariable _ | unknownCommand _ => .commandNotFound
  | logical _ | valueFailed _ _ | shell _ | dispatchFailed _ _ | hookFailed _ _ => .runtime

def construct : CommandError → Text
  | missing command _ | name command _ | wordUndefined command _ | valueUndefined command _
  | valueFailed command _ | appendValue command _ | fileArgument command _
  | cannotOpen command _ _ | dispatchRefused command _ | unknownVariable command
  | unknownCommand command => command
  | logical _ => "setb"
  | cannotParse _ _ | missingScript => "parse"
  | exitCode _ => "quit"
  | shell _ => "system"
  | waitArgument => "wait"
  | pathsFlag => "relative_file_paths"
  | dispatchFailed _ _ => "dispatch"
  | hookFailed _ _ => "hook"

end CommandError

inductive Cause where
  | malformed (error : Malformed)
  | store (error : StoreError)
  | aliasing (error : AliasError)
  | flow (error : FlowError)
  | eval (error : EvalError)
  | function (name : Text) (error : ArgumentError)
  | format (word : Text) (error : FormatError)
  | command (error : CommandError)
  | host (kind : ErrorKind) (message : Text) (construct : Option Text)
  deriving DecidableEq, Repr

namespace Cause

def message : Cause → Text
  | malformed error => error.message
  | store error => error.message
  | aliasing error => error.message
  | flow error => error.message
  | eval error => error.message
  | function name error => name ++ ": " ++ error.message
  | format word error => word ++ ": " ++ error.message
  | command error => error.message
  | host _ message _ => message

def kind : Cause → ErrorKind
  | malformed _ => .malformed
  | store error => error.kind
  | aliasing _ | format _ _ => .runtime
  | flow error => error.kind
  | eval error => error.kind
  | function _ _ => .argument
  | command error => error.kind
  | host kind _ _ => kind

/-- The part of the language a report blames; malformed text names none. -/
def construct : Cause → Option Text
  | malformed _ => none
  | store error => some error.construct
  | aliasing _ => some "alias"
  | flow error => some error.construct
  | eval error => some error.construct
  | function name _ => some name
  | format word _ => some word
  | command error => some error.construct
  | host _ _ construct => construct

end Cause

structure ScriptError where
  cause : Cause
  place : Option Place := none
  deriving DecidableEq, Repr

namespace ScriptError

def message (error : ScriptError) : Text := error.cause.message

def kind (error : ScriptError) : ErrorKind := error.cause.kind

def construct (error : ScriptError) : Option Text := error.cause.construct

def isMalformed (error : ScriptError) : Bool := error.kind = .malformed

end ScriptError

/-- Why something cannot be had: a script error, by its cause, or a fault. -/
inductive Failure where
  | cause (cause : Cause)
  | fault (fault : Fault)
  deriving DecidableEq, Repr

end CommandScript
