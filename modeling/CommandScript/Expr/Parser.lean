import CommandScript.Expr.Basic
import CommandScript.Expr.Token
import CommandScript.Text.Letter

/-! From tokens to trees. Each level of binding is a chain of operands of the next tighter level;
the innermost level, a primary, comes back to the loosest one inside parentheses and calls. -/

namespace CommandScript.Expr

abbrev Parse (α : Type) := List Token → Except Malformed (α × List Token)

def expectClose : List Token → Except Malformed (List Token)
  | token :: rest =>
    if token.lexeme.isOperator .closeParen then .ok rest else .error (.missing ')')
  | [] => .error (.missing ')')

def startsWith (op : Operator) : List Token → Bool
  | token :: _ => token.lexeme.isOperator op
  | [] => false

/-- The arguments of a call up to its closing parenthesis; every round takes a comma, so the
number of tokens bounds the rounds. -/
def arguments (nested : Parse Expr) : Nat → Parse (List Expr)
  | 0, _ => .error (.missing ')')
  | rounds + 1, tokens => do
    let (arg, rest) ← nested tokens
    if startsWith .comma rest then
      let (more, rest) ← arguments nested rounds (rest.drop 1)
      return (arg :: more, rest)
    else
      return ([arg], ← expectClose rest)

def callArguments (nested : Parse Expr) : Parse (List Expr) := fun tokens =>
  let inside := tokens.drop 1
  if startsWith .closeParen inside then .ok ([], inside.drop 1)
  else arguments nested inside.length inside

def operand (bracketed : Text → Except Malformed Expr) (nested : Bool → Parse Expr) (inCall : Bool)
    (lexeme : Lexeme) : Parse Expr := fun rest =>
  match lexeme with
  | .operator .openParen _ =>
    if startsWith .closeParen rest then .error (.uninterpretable "()")
    else do
      let (inner, rest) ← nested inCall rest
      return (group false inner, ← expectClose rest)
  | .operator op _ => .error (.uninterpretable op.text)
  | .quoted body => .ok (quoted body inCall, rest)
  | .bracket inner => do return (group true (← bracketed inner), rest)
  | .term name index =>
    if startsWith .openParen rest then
      if index.isSome || !name.all Text.isDottedNameChar then .error (.functionName name)
      else do
        let (args, rest) ← callArguments (nested true) rest
        return (call name args, rest)
    else
      match index with
      | none => .ok (term name, rest)
      | some inner => do return (element name (← bracketed inner), rest)

/-- The marks of a token apply to the operand it starts, the sign first. -/
def applyMarks (token : Token) (e : Expr) : Expr :=
  let signed := if token.negated then negate e else e
  if token.inverted then invert signed else signed

/-- An operand with its marks. `bracketed` reads the text inside brackets and `nested` the tokens
inside parentheses. -/
def primary (source : Text) (bracketed : Text → Except Malformed Expr) (nested : Bool → Parse Expr)
    (inCall : Bool) : Parse Expr
  | [] => .error (.uninterpretable (Text.trim source))
  | token :: rest => do
    let (e, rest) ← operand bracketed nested inCall token.lexeme rest
    return (applyMarks token e, rest)

def chain (level : Level) (next : Parse Expr) : Nat → Expr → Parse Expr
  | 0, left, tokens => .ok (left, tokens)
  | rounds + 1, left, tokens =>
    match tokens with
    | ⟨.operator (.binary op) _, _, _⟩ :: rest =>
      if op.level = level then do
        let (right, rest) ← next rest
        chain level next rounds (binary op left right) rest
      else .ok (left, tokens)
    | _ => .ok (left, tokens)

def leveled (level : Level) (next : Parse Expr) : Parse Expr := fun tokens => do
  let (left, rest) ← next tokens
  chain level next rest.length left rest

def expression (source : Text) (bracketed : Text → Except Malformed Expr) : Nat → Bool → Parse Expr
  | 0, _, _ => .error (.uninterpretable (Text.trim source))
  | depth + 1, inCall, tokens =>
    leveled .logic
      (leveled .comparison
        (leveled .sum
          (leveled .product
            (primary source bracketed (expression source bracketed depth) inCall)))) tokens

def ofTokens (source : Text) (bracketed : Text → Except Malformed Expr) (tokens : List Token) :
    Except Malformed Expr := do
  if tokens.isEmpty then
    throw (.uninterpretable (Text.orElse (Text.trim source) "empty expression"))
  let (e, rest) ← expression source bracketed (tokens.length + 1) false tokens
  match rest with
  | [] => return e
  | _ =>
    if startsWith .comma rest then throw .strayComma
    else if startsWith .closeParen rest then throw (.missing '(')
    else throw (.uninterpretable (Text.trim source))

def parseWithin : Nat → Text → Except Malformed Expr
  | 0, text => .error (.uninterpretable (Text.trim text))
  | depth + 1, text => do ofTokens text (parseWithin depth) (← Token.tokenize text)

/-- The tree of an expression. The text inside brackets is shorter than the text around them, so
the bound is never reached. -/
def parse (text : Text) : Except Malformed Expr := parseWithin (text.length + 1) text

end CommandScript.Expr
