import CommandScript.Text.Basic

/-! Quoted spans. A text is read from left to right as plain characters and quoted spans; inside a
span only its own closing mark counts. Every scanner of the library is a function on this view. -/

namespace CommandScript

inductive Quote where
  | double
  | single
  | back
  | brace
  deriving DecidableEq, Repr

namespace Quote

def opening : Quote → CodePoint
  | double => '"'
  | single => '\''
  | back => '\x60'
  | brace => '\x7b'

def closing : Quote → CodePoint
  | double => '"'
  | single => '\''
  | back => '\x60'
  | brace => '\x7d'

def of? (c : CodePoint) : Option Quote :=
  if c = '"' then some double
  else if c = '\'' then some single
  else if c = '\x60' then some back
  else if c = '\x7b' then some brace
  else none

def ofStraight? (c : CodePoint) : Option Quote := (of? c).filter (· ≠ brace)

def isOpening (c : CodePoint) : Bool := (of? c).isSome

theorem of?_opening (q : Quote) : of? q.opening = some q := by cases q <;> decide

theorem of?_eq_some {c : CodePoint} {q : Quote} (opens : of? c = some q) : q.opening = c := by
  unfold of? at opens
  split at opens
  · cases opens; simp_all [opening]
  split at opens
  · cases opens; simp_all [opening]
  split at opens
  · cases opens; simp_all [opening]
  split at opens
  · cases opens; simp_all [opening]
  · cases opens

end Quote

inductive Span where
  | plain (c : CodePoint)
  | quoted (quote : Quote) (body : Text)
  | unclosed (quote : Quote) (rest : Text)
  deriving DecidableEq, Repr

namespace Span

def text : Span → Text
  | plain c => [c]
  | quoted q body => q.opening :: body ++ [q.closing]
  | unclosed q rest => q.opening :: rest

/-- Reads a text into pieces; `quoteOf` says which characters open a quoted span. -/
def scanWith (quoteOf : CodePoint → Option Quote) : Text → List Span
  | [] => []
  | c :: rest =>
    match quoteOf c with
    | none => plain c :: scanWith quoteOf rest
    | some q =>
      match _found : Text.cut? q.closing rest with
      | none => [unclosed q rest]
      | some (body, after) => quoted q body :: scanWith quoteOf after
termination_by s => s.length
decreasing_by
  · simp
  · have shorter := Text.cut?_length _found
    simp only [List.length_cons]
    omega

def scan (s : Text) : List Span := scanWith Quote.of? s

def flatten (spans : List Span) : Text := spans.flatMap text

theorem flatten_scan (s : Text) : flatten (scan s) = s := by
  unfold scan
  fun_induction scanWith Quote.of? s with
  | case1 => rfl
  | case2 c rest noQuote ih => simpa [flatten, text] using ih
  | case3 c rest q opens notClosed => simp [flatten, text, Quote.of?_eq_some opens]
  | case4 c rest q opens body after found ih =>
      have whole := Text.cut?_append found
      simp only [flatten] at ih
      simp [flatten, text, Quote.of?_eq_some opens, ih, whole]

end Span

namespace Text

def stripQuotes (s : Text) : Text :=
  match s with
  | [] => s
  | first :: rest =>
    match Quote.ofStraight? first, rest.getLast? with
    | some _, some last => if last = first then rest.dropLast else s
    | _, _ => s

end Text

end CommandScript
