import CommandScript.Text.Basic

/-! The families of script errors, and where in a script an error arose. -/

namespace CommandScript

inductive ErrorKind where
  | malformed
  | runtime
  | variableNotFound
  | unknownFunction
  | argument
  | arrayIndex
  | controlFlow
  | scriptFile
  | commandNotFound
  deriving DecidableEq, Repr

def ErrorKind.label : ErrorKind → Text
  | malformed => "ScriptSyntaxError"
  | runtime => "ScriptRuntimeError"
  | variableNotFound => "VariableNotFoundError"
  | unknownFunction => "UnknownFunctionError"
  | argument => "ArgumentError"
  | arrayIndex => "ArrayIndexError"
  | controlFlow => "ControlFlowError"
  | scriptFile => "ScriptFileError"
  | commandNotFound => "CommandNotFoundError"

structure Place where
  file : Text
  line : Nat
  statement : Text
  deriving DecidableEq, Repr

/-- Failures that are no script errors: they pass through every handler of the language. -/
inductive Fault where
  | infiniteInteger
  | nanInteger
  /-- An integer beyond the range of doubles, or beyond the bits it may have. -/
  | integerTooLarge
  | codePoint
  | dateRange
  | yearZero
  | elementRange
  | elementType
  | emptyWindow
  | timeStyle
  | negativeSleep
  | sleepRange
  | separator
  | digits
  | textLength
  | noScope
  | pathText
  | encoding
  | half
  | host (message : Text)
  deriving DecidableEq, Repr

end CommandScript
