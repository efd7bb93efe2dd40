import CommandScript.Error.Malformed
import CommandScript.Expr.Operator
import CommandScript.Text.Digit
import CommandScript.Text.Statement

/-! Tokens of an expression. A text is cut into lexemes; then runs of signs are joined, prefix
operators become marks on the operand they stand before, and neighbours that cannot stand side by
side are refused. -/

namespace CommandScript

inductive Lexeme where
  | operator (op : Operator) (spelling : Text)
  | quoted (body : Text)
  | term (text : Text) (index : Option Text)
  | bracket (inner : Text)
  deriving DecidableEq, Repr

namespace Lexeme

def isValue : Lexeme → Bool
  | operator _ _ => false
  | _ => true

def isQuoted : Lexeme → Bool
  | quoted _ => true
  | _ => false

def operator? : Lexeme → Option Operator
  | operator op _ => some op
  | _ => none

def isOperator (wanted : Operator) (lexeme : Lexeme) : Bool := lexeme.operator? = some wanted

def isInfix (lexeme : Lexeme) : Bool := lexeme.operator?.any Operator.isInfix

def shown : Lexeme → Text
  | operator op _ => op.text
  | quoted body => "\"" ++ body ++ "\""
  | term text _ => text
  | bracket _ => []

/-- The inside of a bracket whose opening mark has been read, and what follows it. Quotes do not
matter here, and a bracket that is never closed runs to the end. -/
def cutBracket (depth : Nat) : Text → Text × Text
  | [] => ([], [])
  | c :: rest =>
    if c = ']' ∧ depth = 0 then ([], rest)
    else
      let (inner, after) := cutBracket (if c = '[' then depth + 1 else if c = ']' then depth - 1 else depth) rest
      (c :: inner, after)

theorem cutBracket_length (depth : Nat) (s : Text) : (cutBracket depth s).2.length ≤ s.length := by
  induction s generalizing depth with
  | nil => simp [cutBracket]
  | cons c rest ih =>
      simp only [cutBracket]
      split
      · simp
      · have shorter := ih (if c = '[' then depth + 1 else if c = ']' then depth - 1 else depth)
        simp only [List.length_cons]
        omega

/-- A sign after the mark of an exponent, and before a digit, belongs to the number. -/
def isExponentSign (older last c : CodePoint) (rest : Text) : Bool :=
  (c = '+' || c = '-') && (last = 'e' || last = 'E') &&
    (Text.isDigitChar older || older = '.') && rest.head?.any Text.isDigitChar

def endsTerm (c : CodePoint) : Bool :=
  (Operator.ofChar? c).isSome || Quote.isOpening c || c = '['

/-- A term runs to the next operator, quote or bracket; `older` and `last` are the two characters
before the text. -/
def cutTerm (older last : CodePoint) : Text → Text × Text
  | [] => ([], [])
  | c :: rest =>
    if !isExponentSign older last c rest && endsTerm c then ([], c :: rest)
    else
      let (more, after) := cutTerm last c rest
      (c :: more, after)

theorem cutTerm_length (older last : CodePoint) (s : Text) : (cutTerm older last s).2.length ≤ s.length := by
  induction s generalizing older last with
  | nil => simp [cutTerm]
  | cons c rest ih =>
      simp only [cutTerm]
      split
      · simp
      · have shorter := ih last c
        simp only [List.length_cons]
        omega

def scan : Text → Except Malformed (List Lexeme)
  | [] => .ok []
  | c :: rest =>
    if Text.isBlank c then scan rest
    else
      match rest.head?.bind (Operator.ofPair? c) with
      | some op => (scan (rest.drop 1)).map (operator op (c :: rest.take 1) :: ·)
      | none =>
        match Quote.of? c with
        | some quote =>
          match _found : Text.cut? quote.closing rest with
          | none => .error (.unclosedQuote quote)
          | some (body, after) => (scan after).map (quoted body :: ·)
        | none =>
          if c = '[' then
            let inner := (cutBracket 0 rest).1
            if Text.trim inner = [] then .error (.emptyBrackets (c :: rest))
            else (scan (cutBracket 0 rest).2).map (bracket inner :: ·)
          else
            match Operator.ofChar? c with
            | some op => (scan rest).map (operator op [c] :: ·)
            | none =>
              let name := Text.trim (c :: (cutTerm ' ' c rest).1)
              match _follows : (cutTerm ' ' c rest).2 with
              | '[' :: after =>
                let inner := (cutBracket 0 after).1
                if Text.trim inner = [] then .error (.emptyBrackets (.char '[' :: after))
                else (scan (cutBracket 0 after).2).map (term name (some inner) :: ·)
              | other => (scan other).map (term name none :: ·)
termination_by s => s.length
decreasing_by
  · simp
  · simp only [List.length_drop, List.length_cons]; omega
  · have shorter := Text.cut?_length _found
    simp only [List.length_cons]; omega
  · have shorter := cutBracket_length 0 rest
    simp only [List.length_cons]; omega
  · simp
  · have term := cutTerm_length ' ' c rest
    have inner := cutBracket_length 0 after
    rw [_follows] at term
    simp only [List.length_cons] at *
    omega
  · have term := cutTerm_length ' ' c rest
    rw [_follows] at term
    simp only [List.length_cons] at *
    omega

/-- Two signs side by side are one: equal signs give plus, different signs minus. -/
def joinSigns (first second : Operator) : Lexeme :=
  if first = second then operator .plus "+" else operator .minus "-"

def collapseSigns : List Lexeme → List Lexeme
  | [] => []
  | lexeme :: rest =>
    match lexeme, collapseSigns rest with
    | operator first _, operator second spelling :: more =>
      if first.isSign && second.isSign then joinSigns first second :: more
      else lexeme :: operator second spelling :: more
    | _, more => lexeme :: more

end Lexeme

structure Token where
  lexeme : Lexeme
  negated : Bool := false
  inverted : Bool := false
  deriving DecidableEq, Repr

namespace Token

structure Marks where
  negated : Bool
  inverted : Bool
  last : Operator
  deriving DecidableEq, Repr

def Marks.add (marks : Option Marks) (op : Operator) : Marks where
  negated := (marks.any (·.negated)) != (op = .minus)
  inverted := (marks.any (·.inverted)) != (op = .not)
  last := op

def atOperandStart (previous : Option Lexeme) : Bool :=
  match previous with
  | none => true
  | some lexeme => lexeme.operator?.any (· ≠ .closeParen)

def isMark (op : Operator) : Bool := op.isSign || op = .not

/-- Turns prefix operators into marks; `previous` is the token before, and `marks` are the prefix
operators after it. -/
def mark (previous : Option Lexeme) (marks : Option Marks) : List Lexeme → Except Malformed (List Token)
  | [] =>
    match marks with
    | some found => .error (.trailing found.last.text)
    | none => .ok []
  | lexeme :: rest =>
    match lexeme.operator?.filter fun op => isMark op && atOperandStart previous with
    | some op => mark previous (some (Marks.add marks op)) rest
    | none =>
      if lexeme.isOperator .not then
        .error (.followedBy ((previous.map Lexeme.shown).getD []) "!")
      else
        match marks with
        | none => (mark (some lexeme) none rest).map ({ lexeme } :: ·)
        | some found =>
          if !(lexeme.isValue || lexeme.isOperator .openParen) then
            .error (.followedBy found.last.text lexeme.shown)
          else
            match lexeme, found.negated with
            | .quoted body, true => .error (.negatedQuote body)
            | _, _ =>
              (mark (some lexeme) none rest).map
                ({ lexeme, negated := found.negated, inverted := found.inverted } :: ·)

def clash (left right : Lexeme) : Bool :=
  (left.isInfix && right.isInfix) ||
  (left.isValue && right.isValue) ||
  (left.isOperator .closeParen && (right.isValue || right.isOperator .openParen)) ||
  (left.isQuoted && right.isOperator .openParen) ||
  (left.isOperator .openParen && right.isInfix) ||
  (left.isInfix && right.isOperator .closeParen)

def checkPairs : List Token → Except Malformed Unit
  | left :: right :: rest =>
    if clash left.lexeme right.lexeme then
      .error (.followedBy left.lexeme.shown right.lexeme.shown)
    else checkPairs (right :: rest)
  | _ => .ok ()

def checkNeighbours (tokens : List Token) : Except Malformed Unit :=
  match tokens.head?, tokens.getLast? with
  | some first, some last =>
    if first.lexeme.isInfix then .error (.leading first.lexeme.shown)
    else if last.lexeme.isInfix then .error (.trailing last.lexeme.shown)
    else checkPairs tokens
  | _, _ => .ok ()

def tokenize (text : Text) : Except Malformed (List Token) := do
  Text.checkBalance text
  let lexemes ← Lexeme.scan text
  let tokens ← mark none none (Lexeme.collapseSigns lexemes)
  checkNeighbours tokens
  return tokens

end Token

end CommandScript
