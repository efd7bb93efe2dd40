import CommandScript.Error.Cause
import CommandScript.Number.Literal
import CommandScript.Text.Letter

/-! Variables. Globals are seen everywhere; each open file has a scope of its own, and a file that is
about to run has a scope that its inline block fills. Names keep the order in which they were first
set. -/

namespace CommandScript

abbrev Scope := List (Text × Text)

namespace Scope

def get? (scope : Scope) (name : Text) : Option Text := scope.lookup name

def has (scope : Scope) (name : Text) : Bool := (scope.get? name).isSome

def set : Scope → Text → Text → Scope
  | [], name, value => [(name, value)]
  | (key, old) :: rest, name, value =>
    if key = name then (key, value) :: rest else (key, old) :: set rest name value

def erase (scope : Scope) (name : Text) : Scope := scope.filter (·.1 ≠ name)

theorem get?_set (scope : Scope) (name value other : Text) :
    (scope.set name value).get? other = if other = name then some value else scope.get? other := by
  induction scope with
  | nil => by_cases same : other = name <;> simp [set, get?, List.lookup_cons, same, beq_eq_false_iff_ne.mpr]
  | cons entry rest ih =>
      obtain ⟨key, old⟩ := entry
      simp only [get?] at ih ⊢
      by_cases here : key = name
      · subst here
        by_cases same : other = key
        · simp [set, same]
        · simp [set, List.lookup_cons, same, beq_eq_false_iff_ne.mpr same]
      · by_cases found : other = key
        · subst found
          simp [set, here]
        · simp [set, List.lookup_cons, here, beq_eq_false_iff_ne.mpr found, ih]

end Scope

/-- The fields of a list: what stands between commas and quotes, without blanks around it; empty
fields are dropped. -/
def splitArray (text : Text) : List Text :=
  ((List.splitOnP (fun c => c = .char ',' || c = .char '"') text).map Text.trim).filter (· ≠ [])

def isValidName (name : Text) : Bool := !name.isEmpty && name.all Text.isNameChar

structure Store where
  globals : Scope := []
  scopes : List Scope := []
  pending : List Scope := []
  redirected : Bool := false
  deriving DecidableEq, Repr

namespace Store

def pushScope (store : Store) (scope : Scope) : Store := { store with scopes := scope :: store.scopes }

def popScope? (store : Store) : Option (Scope × Store) :=
  match store.scopes with
  | [] => none
  | scope :: rest => some (scope, { store with scopes := rest })

def innermost (store : Store) : Scope := store.scopes.head?.getD store.globals

def updateInnermost (store : Store) (f : Scope → Scope) : Store :=
  match store.scopes with
  | [] => { store with globals := f store.globals }
  | scope :: rest => { store with scopes := f scope :: rest }

def setGlobal (store : Store) (name value : Text) : Store :=
  { store with globals := store.globals.set name value }

/-- A global of that name is overwritten; any other name goes to the scope of the file about to run
or to the innermost scope. -/
def set (store : Store) (name value : Text) : Store :=
  if store.globals.has name then store.setGlobal name value
  else
    match store.redirected, store.pending with
    | true, scope :: rest => { store with pending := scope.set name value :: rest }
    | _, _ => store.updateInnermost (·.set name value)

def setAll (store : Store) (writes : List (Text × Text)) : Store :=
  writes.foldl (fun store (name, value) => store.set name value) store

def openPending (store : Store) : Store :=
  { store with pending := [] :: store.pending, redirected := true }

/-- Ends an inline block. Writes are not redirected any more, not even to the scope of an outer
file about to run. -/
def closePending (store : Store) : Scope × Store :=
  (store.pending.head?.getD [], { store with pending := store.pending.drop 1, redirected := false })

def lookup (store : Store) (name : Text) : Option Text :=
  match (store.scopes.head?.getD []).get? name with
  | some value => some value
  | none => store.globals.get? name

def fail {α : Type} (error : StoreError) : Except Failure α := .error (.cause (.store error))

def element (array index name : Text) : Except Failure Text :=
  match Number.parseInt index with
  | .error fault => .error (.fault fault)
  | .ok none => fail (.indexText index name)
  | .ok (some position) =>
    match if 1 ≤ position then (splitArray array)[(position - 1).toNat]? else none with
    | some field => .ok field
    | none => fail (.indexRange name)

def get? (store : Store) (name : Text) : Except Failure (Option Text) :=
  match Text.cut? '[' name with
  | none => .ok (store.lookup (Text.trim name))
  | some (base, inside) =>
    match Text.cut? ']' inside with
    | none => fail (.openIndex name)
    | some (index, after) =>
      if Text.trim after ≠ [] then fail (.afterIndex name)
      else
        match store.lookup (Text.trim base) with
        | none => .ok none
        | some array => (element array (Text.trim index) name).map some

def get (store : Store) (name : Text) : Except Failure Text :=
  match store.get? name with
  | .error failure => .error failure
  | .ok (some value) => .ok value
  | .ok none => fail (.undefined name)

def delete (store : Store) (name : Text) : Bool × Store :=
  (store.innermost.has name, store.updateInnermost (·.erase name))

def publish (store : Store) (name : Text) : Except StoreError Store :=
  let name := Text.trim name
  if !isValidName name then .error (.exportName name)
  else
    match store.lookup name with
    | none => .error (.exportUndefined name)
    | some value => .ok (store.setGlobal name value)

/-- All names that can be read, with their values: globals first, then locals; a local value stands
at the place of the global it hides. -/
def snapshot (store : Store) : Scope :=
  (store.scopes.head?.getD []).foldl (fun merged (name, value) => merged.set name value) store.globals

end Store

end CommandScript
