import CommandScript.Proofs.Scoping.Watching
import CommandScript.Proofs.Variables.Writes

/-! Reserved names. As long as no loop and no print into a variable is given a reserved name, which nothing
checks, a run binds none of them but the number of a pass, and the two flags of the session keep their values.
-/

namespace CommandScript

variable {σ : Type}

open Run

namespace Names

/-- The number of a pass is the one reserved name that a run binds. -/
def isBindable (name : Text) : Bool := !isReserved name || name = "for_index"

theorem flags_reserved {flag : Text} (known : flag ∈ (["standard_input", "parse_only"] : List Text)) :
    isBindable flag = false := by
  revert flag
  decide +kernel

end Names

open Names

namespace Store

/-- Local scopes bind no reserved name but the number of a pass, the globals none but this and the flags of the session,
and the flags are as they were set. -/
def Clear (options : Options) (store : Store) : Prop :=
  (∀ scope ∈ store.scopes ++ store.pending, ∀ name ∈ scope.names, isBindable name) ∧
    (∀ name ∈ store.globals.names, isBindable name ∨ name ∈ (["standard_input", "parse_only"] : List Text)) ∧
    store.globals.get? "standard_input" = some (truthText options.standardInput) ∧
    store.globals.get? "parse_only" = some (truthText options.parseOnly)

instance (options : Options) (store : Store) : Decidable (store.Clear options) := inferInstanceAs (Decidable (_ ∧ _))

namespace Clear

variable {options : Options} {store : Store} {name : Text}

theorem setGlobal (clear : store.Clear options) (value : Text) (bindable : isBindable name) :
    (store.setGlobal name value).Clear options := by
  obtain ⟨locals, globals, standardInput, parseOnly⟩ := clear
  have other {flag : Text} (known : flag ∈ (["standard_input", "parse_only"] : List Text)) : flag ≠ name := by
    rintro rfl
    rw [flags_reserved known] at bindable
    cases bindable
  refine ⟨locals, fun bound member => ?_, ?_, ?_⟩
  · rcases Scope.mem_names_set member with rfl | inside
    · exact .inl bindable
    · exact globals bound inside
  · rw [Store.setGlobal, Scope.get?_set, if_neg (other (by simp)), standardInput]
  · rw [Store.setGlobal, Scope.get?_set, if_neg (other (by simp)), parseOnly]

theorem set (clear : store.Clear options) (filled : store.scopes ≠ []) (value : Text) (bindable : isBindable name) :
    (store.set name value).Clear options := by
  unfold Store.set
  split
  · exact clear.setGlobal value bindable
  obtain ⟨locals, rest⟩ := clear
  have updated {scope : Scope} (known : scope ∈ store.scopes ++ store.pending) :
      ∀ bound ∈ (scope.set name value).names, isBindable bound := by
    intro bound member
    rcases Scope.mem_names_set member with rfl | inside
    · exact bindable
    · exact locals scope known bound inside
  split
  · rename_i pending _ first others waiting
    refine ⟨fun scope member => ?_, rest⟩
    rw [waiting] at locals updated
    simp only [List.mem_append, List.mem_cons] at member
    rcases member with inner | rfl | outer
    · exact locals scope (by simp [inner])
    · exact updated (by simp)
    · exact locals scope (by simp [outer])
  · cases scopes : store.scopes with
    | nil => exact absurd scopes filled
    | cons first others =>
        rw [scopes] at locals updated
        simp only [updateInnermost, scopes]
        refine ⟨fun scope member => ?_, rest⟩
        simp only [List.mem_append, List.mem_cons] at member
        rcases member with (rfl | inner) | outer
        · exact updated (by simp)
        · exact locals scope (by simp [inner])
        · exact locals scope (by simp [outer])

theorem delete (clear : store.Clear options) (filled : store.scopes ≠ []) (name : Text) :
    (store.delete name).2.Clear options := by
  obtain ⟨locals, rest⟩ := clear
  cases scopes : store.scopes with
  | nil => exact absurd scopes filled
  | cons first others =>
      rw [scopes] at locals
      simp only [Store.delete, updateInnermost, scopes]
      refine ⟨fun scope member => ?_, rest⟩
      simp only [List.cons_append, List.mem_cons] at member
      rcases member with rfl | outer
      · exact fun bound inside => locals first (by simp) bound (Scope.mem_names_erase inside)
      · exact locals scope (by simp [List.mem_append.mp outer])

theorem publish (clear : store.Clear options) {after : Store} (published : store.publish name = .ok after) :
    after.Clear options := by
  unfold Store.publish at published
  dsimp only at published
  generalize Text.trim name = name at published
  split at published
  · cases published
  split at published
  · cases published
  rename_i value found
  cases published
  by_cases bindable : isBindable name
  · exact clear.setGlobal value bindable
  -- a name that no scope binds is found in the globals, and keeps its value
  obtain ⟨locals, globals, standardInput, parseOnly⟩ := clear
  have known : store.globals.get? name = some value := by
    unfold Store.lookup at found
    split at found
    · rename_i here
      cases scopes : store.scopes with
      | nil =>
          rw [scopes] at here
          cases here
      | cons first others =>
          rw [scopes] at here locals
          exact absurd (locals first (by simp) name (Scope.mem_names_of_get? here)) bindable
    · exact found
  have same (other : Text) : (store.globals.set name value).get? other = store.globals.get? other := by
    rw [Scope.get?_set]
    split
    · rename_i here
      rw [here, known]
    · rfl
  refine ⟨locals, fun bound member => ?_, ?_, ?_⟩
  · rcases Scope.mem_names_set member with rfl | inside
    · exact globals bound (Scope.mem_names_of_get? known)
    · exact globals bound inside
  · exact (same _).trans standardInput
  · exact (same _).trans parseOnly

theorem openPending (clear : store.Clear options) : store.openPending.Clear options := by
  refine ⟨fun scope member => ?_, clear.2⟩
  simp only [Store.openPending, List.mem_append, List.mem_cons] at member
  rcases member with inner | rfl | outer
  · exact clear.1 scope (by simp [inner])
  · simp [Scope.names]
  · exact clear.1 scope (by simp [outer])

theorem closePending (clear : store.Clear options) : store.closePending.2.Clear options := by
  refine ⟨fun scope member => ?_, clear.2⟩
  rcases List.mem_append.mp member with inner | outer
  · exact clear.1 scope (by simp [show scope ∈ store.scopes from inner])
  · exact clear.1 scope (List.mem_append_right _ (List.mem_of_mem_drop outer))

theorem pending (clear : store.Clear options) : ∀ name ∈ store.closePending.1.names, isBindable name := by
  cases waiting : store.pending with
  | nil => simp [Store.closePending, waiting, Scope.names]
  | cons first others =>
      intro name member
      exact clear.1 first (by simp [waiting]) name (by simpa [Store.closePending, waiting] using member)

theorem pushScope (clear : store.Clear options) {scope : Scope} (bindable : ∀ name ∈ scope.names, isBindable name) :
    (store.pushScope scope).Clear options := by
  refine ⟨fun other member => ?_, clear.2⟩
  simp only [Store.pushScope, List.cons_append, List.mem_cons] at member
  rcases member with rfl | outer
  · exact bindable
  · exact clear.1 other outer

theorem dropScope (clear : store.Clear options) : Clear options { store with scopes := store.scopes.drop 1 } := by
  refine ⟨fun scope member => ?_, clear.2⟩
  rcases List.mem_append.mp member with inner | outer
  · exact clear.1 scope (List.mem_append_left _ (List.mem_of_mem_drop inner))
  · exact clear.1 scope (List.mem_append_right _ outer)

end Clear

end Store

def Interpreter.bindsReserved (line : Text) : Bool := (forced? line).any fun name => !isBindable name

/-- Neither the sources of the host nor its listeners set variables. -/
structure Services.SetsNothing (services : Services σ) : Prop where
  sources (verb : SourceVerb) (qualifier : Option Text) (type name : Text) (host : σ) :
    (services.askSource verb qualifier type name host).1.writes = []
  events (event : Text) (args : List Text) (host : σ) : (services.emit event args host).1.writes = []

/-- The session at some point of a run: every open script has a scope, and the open loops set names that may be
bound. -/
structure Unreserved (options : Options) (waiting : List (List (Option Text))) (session : Session σ) : Prop where
  clear : session.store.Clear options
  callers : session.callers.map Frame.bound = waiting
  scopes : session.store.scopes.length = waiting.length + 1
  loops : ∀ bound ∈ session.frame.bound :: waiting, ∀ name, some name ∈ bound → isBindable name

namespace Unreserved

variable {options : Options} {waiting : List (List (Option Text))} {session : Session σ}

theorem filled (unreserved : Unreserved options waiting session) : session.store.scopes ≠ [] := by
  intro empty
  have count := unreserved.scopes
  rw [empty] at count
  cases count

theorem withStore (unreserved : Unreserved options waiting session) {store : Store} (clear : store.Clear options)
    (same : store.scopes.length = session.store.scopes.length) : Unreserved options waiting { session with store } :=
  ⟨clear, unreserved.callers, same.trans unreserved.scopes, unreserved.loops⟩

theorem allows {env : Env σ} (quiet : env.services.SetsNothing) :
    Allows env (isBindable ·) (fun _ => True) (Unreserved options waiting) where
  quiet := by
    intro before after unreserved store callers bound
    refine ⟨store ▸ unreserved.clear, callers.trans unreserved.callers, store ▸ unreserved.scopes, ?_⟩
    intro names member name inside
    rcases List.mem_cons.mp member with rfl | outer
    · exact unreserved.loops _ (List.mem_cons_self ..) name (bound inside)
    · exact unreserved.loops names (List.mem_cons_of_mem _ outer) name inside
  put := by
    intro session name value bindable unreserved
    exact unreserved.withStore (unreserved.clear.set unreserved.filled value bindable) (Store.set_scopes_length ..)
  delete := by
    intro session name unreserved
    refine unreserved.withStore (unreserved.clear.delete unreserved.filled name) ?_
    exact Store.updateInnermost_scopes_length ..
  publish := by
    intro session name store _ published unreserved
    refine unreserved.withStore (unreserved.clear.publish published) ?_
    rw [Store.publish_scopes published]
  push := by
    intro session loop bindable unreserved
    refine ⟨unreserved.clear, unreserved.callers, unreserved.scopes, fun names member name inside => ?_⟩
    rcases List.mem_cons.mp member with rfl | outer
    · rcases List.mem_cons.mp inside with here | within
      · exact bindable name here.symm
      · exact unreserved.loops _ (List.mem_cons_self ..) name within
    · exact unreserved.loops names (List.mem_cons_of_mem _ outer) name inside
  loops := fun unreserved name inside => unreserved.loops _ (List.mem_cons_self ..) name inside
  checked := by
    intro name free
    simp [isBindable, free]
  index := by decide
  replies := by
    intro verb qualifier type name host write member
    rw [quiet.sources] at member
    cases member
  listens := by
    intro event args host write member
    rw [quiet.events] at member
    cases member

section Files

variable {env : Env σ} (quiet : env.services.SetsNothing)

include quiet

theorem parses {exec exec' : Text → Run σ Unit}
    (lines : ∀ waiting text, Follows (Unreserved options waiting) (exec text) (exec' text)) (target : ScriptTarget) :
    Follows (Unreserved options waiting) (Interpreter.parseFile env exec target)
      (Interpreter.parseFile env exec' target) := by
  intro session unreserved
  refine (allows quiet).parsesFile unreserved
    (fun scope reached => Unreserved options waiting reached ∧ ∀ name ∈ scope.names, isBindable name)
    ⟨unreserved, by simp [Scope.names]⟩ (fun block => ?_) (fun scope reached path place ready => ?_) target
  · have opens := unreserved.withStore unreserved.clear.openPending rfl
    obtain ⟨alike, ends⟩ := (allows quiet).runsBlock (lines waiting) opens
      (fun reached kept => kept.withStore kept.clear.closePending rfl) block
    refine ⟨alike, fun scope after ended => ?_⟩
    obtain ⟨reached, kept, rfl, rfl⟩ := ends scope after ended
    exact ⟨kept.withStore kept.clear.closePending rfl, kept.clear.pending⟩
  · obtain ⟨kept, bindable⟩ := ready
    have enters : Unreserved options (reached.frame.bound :: waiting)
        (Interpreter.entered { path := some path } scope reached) := by
      refine ⟨kept.clear.pushScope bindable, ?_, ?_, fun bound member => ?_⟩
      · simp [Interpreter.entered, kept.callers]
      · simp [Interpreter.entered, Store.pushScope, kept.scopes]
      · rcases List.mem_cons.mp member with rfl | outer
        · intro name inside
          cases inside
        · exact kept.loops bound outer
    refine (allows quiet).runsFile (allows quiet) (lines _) kept enters (fun after inside => ?_) place
    -- the script that waits for the file is the first caller, with the loops it had
    obtain ⟨caller, callers, same, bounds, rest⟩ := List.map_eq_cons_iff.mp inside.callers
    refine ⟨inside.clear.dropScope, ?_, ?_, fun bound member => inside.loops bound (List.mem_cons_of_mem _ ?_)⟩
    · simpa [Interpreter.left, same] using rest
    · simpa [Interpreter.left] using inside.scopes
    · simpa [Interpreter.left, same, bounds] using member

theorem watches (depth : Nat) (requests : List Interpreter.Request) :
    Follows (Unreserved options [])
      (Interpreter.answersBy env (Interpreter.watched env (fun _ line => Interpreter.bindsReserved line)
        (fun _ _ => false) depth) requests)
      (Interpreter.answersBy env (Interpreter.watched env (fun _ line => Interpreter.bindsReserved line)
        (fun _ after => !after.store.Clear options) depth) requests) := by
  have lines (waiting : List (List (Option Text))) (text : Text) : Follows (Unreserved options waiting)
      (Interpreter.watched env (fun _ line => Interpreter.bindsReserved line) (fun _ _ => false) depth text)
      (Interpreter.watched env (fun _ line => Interpreter.bindsReserved line)
        (fun _ after => !after.store.Clear options) depth text) := by
    refine watched_follows (fun _ => allows quiet) (fun _ after waiting unreserved kept => ?_)
      (fun _ _ line _ free name forced => ?_) (fun _ _ _ _ _ => trivial)
      (fun _ _ lines _ _ _ unreserved _ _ target => parses quiet lines target unreserved) depth waiting text
    · simp [(kept waiting unreserved).clear]
    · simpa [Interpreter.bindsReserved, forced] using free
  exact (allows quiet).answersFollow (lines []) (parses quiet lines) requests

end Files

theorem start (options : Options) (host : σ) (files : FileTree) :
    Unreserved options [] (Session.start options host files) := by
  refine ⟨⟨?_, ?_, rfl, rfl⟩, rfl, rfl, ?_⟩
  · simp [Session.start, Scope.names]
  · simp [Session.start, Scope.names]
  · simp [Session.start, Frame.bound]

end Unreserved

namespace Interpreter

/-- Reserved names are not bound, as long as no loop and no print into a variable is given one. In a run of any
lines, texts and script files from the start of a session whose host sets no variables, no scope ever binds a
reserved name but the number of a pass, nor do the globals but for this and the two flags of the session, and
these keep their values: so it is at the end, and a run that stops after any statement that leaves it otherwise
comes to the same. -/
theorem reserved_unbound (env : Env σ) (options : Options) (host : σ) (files : FileTree) (depth : Nat)
    (requests : List Request)
    (quiet : env.services.SetsNothing)
    (named : answersBy env (watched env (fun _ line => bindsReserved line) (fun _ _ => false) depth) requests
        (Session.start options host files) = answers env depth requests (Session.start options host files)) :
    ((answers env depth requests).leaves (Session.start options host files)).store.Clear options ∧
      answersBy env (watched env (fun _ line => bindsReserved line) (fun _ after => !after.store.Clear options) depth)
        requests (Session.start options host files) =
          answers env depth requests (Session.start options host files) := by
  obtain ⟨same, kept⟩ := Unreserved.watches quiet depth requests (Unreserved.start options host files)
  rw [named] at kept same
  have ended : Unreserved options [] ((answers env depth requests).leaves (Session.start options host files)) :=
    Meets.leaves kept.meets
  exact ⟨ended.clear, same⟩

/-- A loop, a print into a variable, an assignment that is refused, and a script file with an inline block that makes a
flag global once more. -/
theorem flags_unbound :
    let env : Env Unit := {}
    let files : FileTree := { files := [(["f.txt"], "set b = a\nexport parse_only\nunset a\n".toUTF8.toList)] }
    let requests : List Request :=
      [.line "foreach('a, b', i)", .line "sprint s i", .line "endfor", .text "export for_index\nPI = 3\n",
        .file ⟨"f.txt", some "a = 1; sprint c \"2\""⟩]
    let start := Session.start {} () files
    answersBy env (watched env (fun _ line => bindsReserved line) (fun _ _ => false) 3) requests start =
        answers env 3 requests start ∧
      (((answers env 3 requests).leaves start).store.Clear {} ∧
        answersBy env (watched env (fun _ line => bindsReserved line) (fun _ after => !after.store.Clear {}) 3) requests
          start = answers env 3 requests start) := by
  intro env files requests start
  have named : answersBy env (watched env (fun _ line => bindsReserved line) (fun _ _ => false) 3) requests start =
      answers env 3 requests start := Run.eq_of_agree (by decide +kernel)
  exact ⟨named, reserved_unbound env {} () files 3 requests ⟨fun _ _ _ _ _ => rfl, fun _ _ _ => rfl⟩ named⟩

end Interpreter

end CommandScript
