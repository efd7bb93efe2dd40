import CommandScript.Error.Malformed

/-! Statements of a line. Semicolons and newlines end a statement, a number sign starts a comment,
and parentheses and brackets are counted, all of them only outside quoted spans. -/

namespace CommandScript.Text

/-- Counts parentheses and brackets; counting stops at a quote that is not closed. -/
def countMarks (parens brackets : Nat) : List Span → Except Malformed (Nat × Nat)
  | [] => .ok (parens, brackets)
  | .unclosed _ _ :: _ => .ok (parens, brackets)
  | .quoted _ _ :: rest => countMarks parens brackets rest
  | .plain c :: rest =>
    if c = '(' then countMarks (parens + 1) brackets rest
    else if c = ')' then
      if parens = 0 then .error (.missing '(') else countMarks (parens - 1) brackets rest
    else if c = '[' then countMarks parens (brackets + 1) rest
    else if c = ']' then
      if brackets = 0 then .error (.missing '[') else countMarks parens (brackets - 1) rest
    else countMarks parens brackets rest

def checkBalance (line : Text) : Except Malformed Unit :=
  match countMarks 0 0 (Span.scan line) with
  | .error error => .error error
  | .ok (parens, brackets) =>
    if parens > 0 then .error (.missing ')')
    else if brackets > 0 then .error (.missing ']')
    else .ok ()

def endsStatement (c : CodePoint) : Bool := c = ';' || c = '\n'

def prepend (piece : Text) : List Text → List Text
  | [] => [piece]
  | first :: more => (piece ++ first) :: more

def pieces : List Span → Except Malformed (List Text)
  | [] => .ok [[]]
  | .unclosed quote _ :: _ => .error (.unclosedQuote quote)
  | .plain c :: rest =>
    (pieces rest).map (if endsStatement c then ([] :: ·) else prepend [c])
  | .quoted quote body :: rest => (pieces rest).map (prepend (Span.quoted quote body).text)

def splitStatements (line : Text) : Except Malformed (List Text) :=
  (pieces (Span.scan line)).map fun found => (found.map trim).filter (· ≠ [])

def beforeComment : List Span → Text
  | [] => []
  | .plain c :: rest => if c = '#' then [] else c :: beforeComment rest
  | span :: rest => span.text ++ beforeComment rest

def stripComment (line : Text) : Text := beforeComment (Span.scan line)

def closingOffset (depth : Int) : List Span → Option Nat
  | [] => none
  | .unclosed _ _ :: _ => none
  | .quoted quote body :: rest =>
    (closingOffset depth rest).map (· + (Span.quoted quote body).text.length)
  | .plain c :: rest =>
    if c = '(' then (closingOffset (depth + 1) rest).map (· + 1)
    else if c = ')' then
      if depth = 1 then some 0 else (closingOffset (depth - 1) rest).map (· + 1)
    else (closingOffset depth rest).map (· + 1)

/-- The offset of the parenthesis that closes the one a text starts with. Braces do not quote
here. -/
def matchingParen? (s : Text) : Option Nat :=
  closingOffset 0 (Span.scanWith Quote.ofStraight? s)

/-- The place of the parenthesis that brings the depth to zero, when the last characters of a text are
read first and then the whole text. Places before its start count from its end. A quote is closed by a
mark after it, and the reading goes on after that mark. -/
def closingFromEnd (depth : Int) (s : Text) : Text → Option Int
  | [] => (closingOffset depth (Span.scanWith Quote.ofStraight? s)).map fun n => (n : Int)
  | c :: rest =>
    match Quote.ofStraight? c with
    | some quote =>
      match cut? quote.closing (if rest.isEmpty then s else rest) with
      | none => none
      | some (_, after) =>
        (closingOffset depth (Span.scanWith Quote.ofStraight? after)).map fun n =>
          ((s.length - after.length + n : Nat) : Int)
    | none =>
      if c = '(' then closingFromEnd (depth + 1) s rest
      else if c = ')' then
        if depth = 1 then some (-(rest.length + 1 : Int)) else closingFromEnd (depth - 1) s rest
      else closingFromEnd depth s rest

/-- The place of the parenthesis that closes the one at a place, if there is one. A negative place counts
from the end of the text and has to be in it. -/
def matchingParenFrom (s : Text) (start : Int) : Option (Option Int) :=
  if 0 ≤ start then some ((matchingParen? (s.drop start.toNat)).map fun n => n + start)
  else if s.length < start.natAbs then none
  else some (closingFromEnd 0 s (s.drop (s.length - start.natAbs)))

def cutParens? (s : Text) : Option (Text × Text) :=
  (matchingParen? s).map fun offset => ((s.take offset).drop 1, s.drop (offset + 1))

end CommandScript.Text
