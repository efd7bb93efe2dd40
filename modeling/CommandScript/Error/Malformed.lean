import CommandScript.Text.Quote

/-! Texts that cannot be read: the causes found by the scanners, the tokenizer and the parser. -/

namespace CommandScript

inductive Malformed where
  | missing (mark : CodePoint)
  | unclosedQuote (quote : Quote)
  | emptyBrackets (rest : Text)
  | followedBy (left right : Text)
  | negatedQuote (body : Text)
  | leading (what : Text)
  | trailing (what : Text)
  | uninterpretable (what : Text)
  | strayComma
  | functionName (name : Text)
  | strayQuotes
  | statement (line : Text)
  | printQuote (command : Text) (quote : Quote)
  | printGroup (command : Text)
  | printArguments (command rest : Text)
  | printFormat (command format : Text)
  deriving DecidableEq, Repr

def Malformed.message : Malformed → Text
  | missing mark => "Missing '" ++ [mark] ++ "'"
  | unclosedQuote quote => "missing end quote: " ++ [quote.closing]
  | emptyBrackets rest => "empty brackets at: " ++ rest
  | followedBy left right => "cannot interpret: " ++ left ++ " followed by " ++ right
  | negatedQuote body => "cannot interpret '-' before \"" ++ body ++ "\""
  | leading what => "cannot interpret: leading " ++ what
  | trailing what => "cannot interpret: trailing " ++ what
  | uninterpretable what => "cannot interpret: " ++ what
  | strayComma => "cannot interpret comma"
  | functionName name => "invalid function: " ++ name
  | strayQuotes => "cannot interpret quotes"
  | statement line => "cannot interpret line: " ++ line
  | printQuote command quote => command ++ ": missing " ++ [quote.closing]
  | printGroup command => command ++ ": missing ')'"
  | printArguments command rest => command ++ ": missing ')': " ++ rest
  | printFormat command format => command ++ ": expecting '%' at: " ++ format

end CommandScript
