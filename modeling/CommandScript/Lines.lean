import CommandScript.Text.Statement

/-! Physical and logical lines. Comments are dropped, a backslash at the end of a line joins the next
one, and a brace at the end collects lines up to one that ends in the closing brace. -/

namespace CommandScript.Lines

inductive Event where
  | asked (within : Bool)
  | warning
  | line (text : Text) (number : Nat)
  deriving DecidableEq, Repr

def warningText : Text := "unexpected '\x7b' before missing '\x7d'"

structure Open where
  text : Text
  inBraces : Bool
  deriving DecidableEq, Repr

def clean (raw : Text) : Text :=
  Text.trim (Text.stripComment ((raw.reverse.dropWhile fun c => c = .char '\n' || c = .char '\r').reverse))

/-- The logical line that has come to its end, unless it is blank or a comment. -/
def kept? (text : Text) : Option Text :=
  let text := Text.trim text
  if text = [] ∨ text.head? = some (.char '#') then none else some text

def deliver (text : Text) (number : Nat) : List Event := (kept? text).toList.map (.line · number)

/-- Adds a physical line to a logical one: what is read so far, whether a line has to follow, and
whether there is a warning. -/
def extend (before : Option Open) (raw : Text) : Open × Bool × Bool :=
  let text := clean raw
  let done := (before.map (·.text)).getD []
  let inBraces := before.any (·.inBraces)
  match text.getLast? with
  | some '\\' => (⟨done ++ text.dropLast, inBraces⟩, true, false)
  | some '\x7b' => (⟨done ++ text, true⟩, true, inBraces)
  | some '\x7d' => (⟨done ++ text, false⟩, false, false)
  | _ => if inBraces then (⟨done ++ text ++ "\n", true⟩, true, false) else (⟨done ++ text, false⟩, false, false)

def advance (part : Option Open) (raw : Text) : Option Open × Option Text :=
  let (whole, follows, _) := extend part raw
  if follows then (some whole, none) else (none, kept? whole.text)

/-- Folds physical lines; `before` is the logical line being read and `number` the number of
physical lines read so far. -/
def foldFrom (before : Option Open) (number : Nat) : List Text → List Event
  | [] =>
    match before with
    | none => [.asked false]
    | some part => .asked true :: deliver part.text number ++ [.asked false]
  | raw :: rest =>
    let (part, follows, warns) := extend before raw
    .asked before.isSome :: (if warns then [.warning] else []) ++
      (if follows then foldFrom (some part) (number + 1) rest
       else deliver part.text (number + 1) ++ foldFrom none (number + 1) rest)

def fold (physical : List Text) : List Event := foldFrom none 0 physical

/-- The physical lines ahead of a reader, those it has taken, and the number of them that it reports. -/
structure LineReader where
  ahead : List Text
  taken : List Text := []
  number : Nat := 0
  deriving DecidableEq, Repr

namespace LineReader

def readFrom (part : Option Open) (taken : List Text) (number : Nat) : List Text → Option Text × LineReader
  | [] => (part.bind fun part => kept? part.text, ⟨[], taken, number⟩)
  | raw :: rest =>
    match advance part raw with
    | (_, some text) => (some text, ⟨rest, taken ++ [raw], number + 1⟩)
    | (part, none) => readFrom part (taken ++ [raw]) (number + 1) rest

theorem readFrom_ahead (part : Option Open) (taken : List Text) (number : Nat) (ahead : List Text) :
    (readFrom part taken number ahead).2.ahead.length ≤ ahead.length - 1 := by
  induction ahead generalizing part taken number with
  | nil => simp [readFrom]
  | cons raw rest ih =>
      rw [readFrom]
      split
      · simp
      · exact Nat.le_trans (ih _ _ _) (by simp)

def read (reader : LineReader) : Option Text × LineReader :=
  readFrom none reader.taken reader.number reader.ahead

theorem read_shorter {reader after : LineReader} {text : Text} (found : reader.read = (some text, after)) :
    after.ahead.length < reader.ahead.length := by
  have bound := readFrom_ahead none reader.taken reader.number reader.ahead
  rw [read] at found
  cases there : reader.ahead with
  | nil => simp [there, readFrom] at found
  | cons raw rest =>
      rw [found, there, List.length_cons, Nat.add_sub_cancel] at bound
      exact Nat.lt_succ_of_le bound

def readAll (reader : LineReader) : List (Text × Nat) × LineReader :=
  match _found : reader.read with
  | (none, after) => ([], after)
  | (some text, after) => ((text, after.number) :: after.readAll.1, after.readAll.2)
termination_by reader.ahead.length
decreasing_by exact read_shorter _found

end LineReader

/-- What a terminal shows while lines are folded: a prompt for every line that is asked for, and the
warnings. -/
def prompts (name : Text) (events : List Event) : List Text :=
  events.filterMap fun event =>
    match event with
    | .asked within => some (name ++ (if within then ("+ " : Text) else "> "))
    | .warning => some warningText
    | .line _ _ => none

def logical (events : List Event) : List (Text × Nat) :=
  events.filterMap fun event => match event with | .line text number => some (text, number) | _ => none

def texts (events : List Event) : List Text := (logical events).map (·.1)

def endsLine (c : CodePoint) : Bool :=
  (10 ≤ c.toNat && c.toNat ≤ 13) || (0x1c ≤ c.toNat && c.toNat ≤ 0x1e) || c = '\u0085' ||
    c = '\u2028' || c = '\u2029'

def dropEmptyEnd (lines : List Text) : List Text :=
  if lines.getLast? = some [] then lines.dropLast else lines

def joinReturns : Text → Text
  | '\r' :: '\n' :: rest => .char '\n' :: joinReturns rest
  | c :: rest => c :: joinReturns rest
  | [] => []

def ofText (text : Text) : List Text := dropEmptyEnd (List.splitOnP endsLine (joinReturns text))

def ofStream (text : Text) : List Text := dropEmptyEnd (List.splitOn (.char '\n') text)

def plainNewlines (text : Text) : Text := (joinReturns text).map fun c => if c = .char '\r' then .char '\n' else c

/-- The physical lines of a script file: a carriage return ends a line as a newline does. -/
def ofFile (text : Text) : List Text := ofStream (plainNewlines text)

end CommandScript.Lines
