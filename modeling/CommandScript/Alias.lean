import CommandScript.Error.Cause
import CommandScript.Text.Casing
import CommandScript.Text.Letter

/-! Aliases: words that stand for other words. Words of a line are replaced outside quoted
spans, keywords and the name part of an alias definition. -/

namespace CommandScript

structure Alias where
  name : Text
  value : Text
  deriving DecidableEq, Repr

abbrev AliasTable := List Alias

namespace Alias

def answers (name : Text) (entry : Alias) : Bool := Text.lower entry.name = Text.lower name

def reserved : List Text :=
  (["alias", "defined", "export", "help", "parse", "parse_string", "print", "printf", "printclose",
   "printopen", "set", "setb", "sprint", "sprintf", "unalias", "unset", "writearray", "writeclose",
   "writedouble", "writeint", "writefloat", "writelong", "writeopen", "writestring", "quit", "return",
   "foreach", "endfor", "if", "elseif", "else", "endif", "break", "for_index", "system",
     "wait"] : List String).map Text.ofString

def parse (text : Text) : Except AliasError Alias :=
  match Text.cut? '=' text with
  | none => .error .missing
  | some (name, value) =>
    let name := Text.trim name
    let value := Text.trim value
    if name = [] ∨ value = [] then .error .missing
    else if reserved.contains (Text.lower name) then .error (.reserved name)
    else if !value.all Text.isDottedNameChar then .error (.value value)
    else .ok ⟨name, value⟩

end Alias

namespace AliasTable

def find? (table : AliasTable) (name : Text) : Option Alias := List.find? (Alias.answers name) table

def remove (table : AliasTable) (name : Text) : AliasTable := List.eraseP (Alias.answers name) table

def has (table : AliasTable) (name : Text) : Bool := (find? table name).isSome

def redefine (entry : Alias) : AliasTable → AliasTable
  | [] => []
  | first :: rest =>
    if Alias.answers entry.name first then { first with value := entry.value } :: rest
    else first :: redefine entry rest

/-- Redefines an alias in the first table that has it; else adds it to the table at `target`. -/
def define (tables : List AliasTable) (target : Nat) (entry : Alias) : List AliasTable :=
  match tables.findIdx? (has · entry.name) with
  | some place => tables.modify place (redefine entry)
  | none => tables.modify target (· ++ [entry])

/-- Keywords that are never replaced. -/
def keywords : List Text := ["foreach(", "if(", "endif", "endfor"]

def keywordLength (s : Text) : Nat :=
  ((keywords.find? fun word => (Text.afterKeyword? word s).isSome).map List.length).getD 0

def spaces (n : Nat) : Text := List.replicate n (CodePoint.char ' ')

def blankKeywords : Text → Text
  | [] => []
  | c :: rest =>
    match keywordLength (c :: rest) with
    | 0 => c :: blankKeywords rest
    | more + 1 => spaces (more + 1) ++ blankKeywords (rest.drop more)
termination_by s => s.length
decreasing_by
  · simp
  · simp only [List.length_drop, List.length_cons]; omega

def blankQuotes : List Span → Text
  | [] => []
  | .plain c :: rest => c :: blankQuotes rest
  | span :: rest => spaces span.text.length ++ blankQuotes rest

def blankDefinition (s : Text) : Text :=
  if Text.lower (s.take 6) = "alias " then
    let name := s.takeWhile (· ≠ .char '=')
    spaces name.length ++ s.drop name.length
  else s

/-- The line with every part that is never replaced blanked out. -/
def mask (line : Text) : Text := blankDefinition (blankKeywords (blankQuotes (Span.scan line)))

def isDelimiter (c : CodePoint) : Bool := (" \t.~!@#$%^&*,;:()[]\x7b\x7d=><" : Text).contains c

def replacement (tables : List AliasTable) (word : Text) : Text :=
  if word.isEmpty then [] else ((tables.findSome? (find? · word)).map (·.value)).getD word

/-- Replaces the words of a line, given as pairs of its characters and those of its mask; `word` is the part of
a word read so far. -/
def substitute (tables : List AliasTable) (word : Text) : List (CodePoint × CodePoint) → Text
  | [] => replacement tables word
  | (c, masked) :: rest =>
    if isDelimiter masked then
      replacement tables word ++ c :: substitute tables [] rest
    else substitute tables (word ++ [masked]) rest

def apply (tables : List AliasTable) (line : Text) : Text :=
  let tables := tables.filter (· ≠ [])
  if tables.isEmpty then line else substitute tables [] (line.zip (mask line))

end AliasTable

end CommandScript
