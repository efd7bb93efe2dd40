import CommandScript.Text.Digit
import CommandScript.Text.Printable

/-! Texts in quotes with escapes for the characters that do not show as themselves. -/

namespace CommandScript.Text

def hex (width n : Nat) : Text :=
  let digits := inBase 16 n
  List.replicate (width - digits.length) (CodePoint.char '0') ++ digits

def codeEscape (c : CodePoint) : Text :=
  if c.toNat < 0x100 then "\\x" ++ hex 2 c.toNat
  else if c.toNat < 0x10000 then "\\u" ++ hex 4 c.toNat
  else "\\U" ++ hex 8 c.toNat

def escapeChar (keeps : CodePoint → Bool) (quote c : CodePoint) : Text :=
  if c = quote ∨ c = '\\' then [.char '\\', c]
  else if c = '\t' then "\\t"
  else if c = '\n' then "\\n"
  else if c = '\r' then "\\r"
  else if keeps c then [c]
  else codeEscape c

/-- A text in single quotes, or in double quotes if it holds single but no double ones. -/
def quotedWith (keeps : CodePoint → Bool) (s : Text) : Text :=
  let quote : CodePoint := if s.contains '\'' && !s.contains '"' then '"' else '\''
  quote :: s.flatMap (escapeChar keeps quote) ++ [quote]

def quotedPrintable (s : Text) : Text := quotedWith isPrintable s

def quotedAscii (s : Text) : Text := quotedWith (fun c => isPrintable c && c.toNat < 128) s

end CommandScript.Text
