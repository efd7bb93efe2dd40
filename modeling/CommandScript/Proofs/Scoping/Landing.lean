import CommandScript.Proofs.Scoping.Watching

/-! Where assignments land. A variable that is set goes to a global of its name, or to the scope it belongs to:
that of the script whose line sets it, or that of the file about to run while its inline block sets it. As long
as no inline block runs a script file itself, after which variables are written to the wrong scope, this holds
at every statement of a run. -/

namespace CommandScript

variable {σ : Type}

open Run

namespace Scope

variable {scope before : Scope} {name other value : Text}

theorem get?_erase (scope : Scope) (name other : Text) :
    (scope.erase name).get? other = if other = name then none else scope.get? other := by
  induction scope with
  | nil => simp [erase, get?]
  | cons entry rest ih =>
      obtain ⟨key, old⟩ := entry
      simp only [erase, get?, ne_eq, decide_not] at ih ⊢
      by_cases erased : key = name
      · subst erased
        by_cases same : other = key
        · rw [if_pos same] at ih ⊢
          simpa using ih
        · rw [if_neg same] at ih ⊢
          simpa [List.lookup_cons, beq_eq_false_iff_ne.mpr same] using ih
      · by_cases same : other = key
        · subst same
          simp [erased]
        · simpa [erased, List.lookup_cons, beq_eq_false_iff_ne.mpr same] using ih

def Within (scope before : Scope) : Prop := ∀ name ∈ scope.names, scope.get? name = before.get? name

instance (scope before : Scope) : Decidable (scope.Within before) := inferInstanceAs (Decidable (∀ _ ∈ _, _))

theorem Within.refl (scope : Scope) : scope.Within scope := fun _ _ => rfl

theorem Within.erase (within : scope.Within before) (name : Text) : (scope.erase name).Within before := by
  intro other member
  rw [get?_erase]
  split
  · rename_i gone
    obtain ⟨entry, inside, same⟩ := List.mem_map.mp member
    have other := (List.mem_filter.mp inside).2
    simp [same, gone] at other
  · exact within other (mem_names_erase member)

end Scope

namespace Store

/-- Setting a variable overwrites a global of its name, or else sets it in the scope of the file about to run
while there is one, or else in the scope of the running script. -/
inductive Landed (store : Store) (name value : Text) : Store → Prop
  | global : store.globals.has name → Landed store name value (store.setGlobal name value)
  | file {first : Scope} {rest : List Scope} : store.globals.has name = false → store.pending = first :: rest →
      Landed store name value { store with pending := first.set name value :: rest }
  | script {own : Scope} {outer : List Scope} : store.globals.has name = false → store.pending = [] →
      store.scopes = own :: outer → Landed store name value { store with scopes := own.set name value :: outer }

theorem set_pending {store : Store} {name : Text} {first : Scope} {rest : List Scope}
    (unknown : store.globals.has name = false) (redirected : store.redirected = true)
    (pending : store.pending = first :: rest)
    (value : Text) : store.set name value = { store with pending := first.set name value :: rest } := by
  obtain ⟨globals, scopes, _, _⟩ := store
  cases redirected
  cases pending
  rw [set, if_neg (by simpa using unknown)]

theorem set_own {store : Store} {name : Text} {own : Scope} {outer : List Scope}
    (unknown : store.globals.has name = false) (direct : store.redirected = false)
    (scopes : store.scopes = own :: outer)
    (value : Text) : store.set name value = { store with scopes := own.set name value :: outer } := by
  obtain ⟨globals, _, pending, _⟩ := store
  cases direct
  cases scopes
  rw [set, if_neg (by simpa using unknown)]
  rfl

/-- What a statement may do to the local scopes. Only the scope of the running script changes; while an inline
block runs, only the scope of the file about to run, and the one of the running script at most loses variables.
-/
def Confines (before after : Store) : Prop :=
  after.scopes.length = before.scopes.length ∧ after.scopes.drop 1 = before.scopes.drop 1 ∧
    after.pending.length = before.pending.length ∧ after.pending.drop 1 = before.pending.drop 1 ∧
    (before.pending ≠ [] → (after.scopes.head?.getD []).Within (before.scopes.head?.getD []))

instance (before after : Store) : Decidable (before.Confines after) := inferInstanceAs (Decidable (_ ∧ _))

end Store

namespace Session

/-- Every open script has a scope of its own, and variables are set in the scope of the file about to run just
while there is one. -/
def Poised (session : Session σ) : Prop :=
  session.store.scopes.length = session.callers.length + 1 ∧ session.store.redirected = !session.store.pending.isEmpty

instance (session : Session σ) : Decidable session.Poised := inferInstanceAs (Decidable (_ ∧ _))

theorem Poised.lands {session : Session σ} (poised : session.Poised) (name value : Text) :
    session.store.Landed name value (session.put name value).store := by
  obtain ⟨filled, redirected⟩ := poised
  cases known : session.store.globals.has name with
  | true =>
      rw [Session.put, Store.set, if_pos known]
      exact .global known
  | false =>
      cases pending : session.store.pending with
      | cons first rest =>
          rw [Session.put, Store.set_pending known (by simp [redirected, pending]) pending]
          exact .file known pending
      | nil =>
          obtain ⟨own, outer, scopes⟩ := List.exists_cons_of_length_eq_add_one filled
          rw [Session.put, Store.set_own known (by simp [redirected, pending]) scopes]
          exact .script known pending scopes

end Session

/-- Where a statement stands: in a script, with the scopes around its own, or in an inline block, with the scope
that the script of the block had before. -/
inductive Home where
  | script (outer : List Scope)
  | block (own : Scope) (outer : List Scope)

inductive Housed : Home → Session σ → Prop
  | script {own : Scope} {outer : List Scope} {session : Session σ} : session.callers.length = outer.length →
      session.store.scopes = own :: outer → session.store.pending = [] → session.store.redirected = false →
      Housed (.script outer) session
  | block {own left first : Scope} {outer : List Scope} {session : Session σ} : session.callers.length = outer.length →
      session.store.scopes = left :: outer → left.Within own → session.store.pending = [first] →
      session.store.redirected = true → Housed (.block own outer) session

def Interpreter.parsesInBlock (session : Session σ) (line : Text) : Bool :=
  commandOf? line = some .parse && !session.store.pending.isEmpty

namespace Housed

variable {home : Home} {session before after : Session σ}

theorem congr (housed : Housed home before) (store : after.store = before.store)
    (callers : after.callers.length = before.callers.length) : Housed home after := by
  cases housed with
  | script count scopes pending direct =>
      rw [← store] at scopes pending direct
      exact .script (callers.trans count) scopes pending direct
  | block count scopes within pending redirected =>
      rw [← store] at scopes pending redirected
      exact .block (callers.trans count) scopes within pending redirected

theorem setGlobal (housed : Housed home session) (name value : Text) : Housed home (session.setGlobal name value) := by
  cases housed with
  | script count scopes pending direct => exact .script count scopes pending direct
  | block count scopes within pending redirected => exact .block count scopes within pending redirected

theorem put (housed : Housed home session) (name value : Text) : Housed home (session.put name value) := by
  cases known : session.store.globals.has name with
  | true =>
      rw [Session.put, Store.set, if_pos known]
      exact housed.setGlobal name value
  | false =>
      cases housed with
      | script count scopes pending direct =>
          rw [Session.put, Store.set_own known direct scopes]
          exact .script count rfl pending direct
      | block count scopes within pending redirected =>
          rw [Session.put, Store.set_pending known redirected pending]
          exact .block count scopes within rfl redirected

theorem delete (housed : Housed home session) (name : Text) :
    Housed home { session with store := (session.store.delete name).2 } := by
  cases housed with
  | script count scopes pending direct =>
      simp only [Store.delete, Store.updateInnermost, scopes]
      exact .script count rfl pending direct
  | block count scopes within pending redirected =>
      simp only [Store.delete, Store.updateInnermost, scopes]
      exact .block count rfl (within.erase name) pending redirected

theorem publish (housed : Housed home session) {name : Text} {store : Store}
    (published : session.store.publish name = .ok store) : Housed home { session with store } := by
  simp only [Store.publish] at published
  split at published
  · cases published
  split at published
  · cases published
  · cases published
    exact housed.setGlobal _ _

theorem allows (env : Env σ) (home : Home) : Allows env (fun _ => True) (fun _ => True) (Housed home) where
  quiet housed store callers _ := by
    refine housed.congr store ?_
    simpa using congrArg List.length callers
  put value _ housed := housed.put _ value
  delete name housed := housed.delete name
  publish _ published housed := housed.publish published
  push _ housed := housed.congr rfl rfl
  loops _ _ _ := trivial
  checked _ := trivial
  index := trivial
  replies _ _ _ _ _ _ _ := trivial
  listens _ _ _ _ _ := trivial

theorem poised (housed : Housed home session) : session.Poised := by
  cases housed with
  | script count scopes pending direct => exact ⟨by simp [scopes, count], by simp [pending, direct]⟩
  | block count scopes within pending redirected => exact ⟨by simp [scopes, count], by simp [pending, redirected]⟩

theorem confines (housed : Housed home before) (kept : ∀ home, Housed home before → Housed home after) :
    before.store.Confines after.store := by
  cases housed with
  | script count scopes pending direct =>
      cases kept _ (.script count scopes pending direct) with
      | script _ scopes' pending' _ => simp [Store.Confines, scopes, scopes', pending, pending']
  | block count scopes within pending redirected =>
      -- the scope of the script is compared with what it is now
      cases kept _ (.block count scopes (.refl _) pending redirected) with
      | block _ scopes' within' pending' _ => simpa [Store.Confines, scopes, scopes', pending, pending'] using within'

section Files

variable {env : Env σ} {exec exec' : Text → Run σ Unit} {outer : List Scope}

theorem parses (lines : ∀ home text, Follows (Housed home) (exec text) (exec' text)) (target : ScriptTarget) :
    Follows (Housed (.script outer)) (Interpreter.parseFile env exec target)
      (Interpreter.parseFile env exec' target) := by
  intro session housed
  refine (allows env _).parsesFile housed (fun _ reached => Housed (.script outer) reached) housed (fun block => ?_)
    (fun scope reached path place ready => ?_) target
  · cases housed with
    | @script own _ _ count scopes pending direct =>
        have empty : session.store.openPending.pending = [[]] := by simp [Store.openPending, pending]
        have opens : Housed (.block own outer) { session with store := session.store.openPending } :=
          .block count scopes (.refl own) empty rfl
        have closes (reached : Session σ) (housed : Housed (.block own outer) reached) :
            Housed (.script outer) { reached with store := reached.store.closePending.2 } := by
          cases housed with
          | block count scopes within pending redirected =>
              exact .script count scopes (by simp [Store.closePending, pending]) rfl
        obtain ⟨alike, ends⟩ := (allows env _).runsBlock (lines _) opens closes block
        refine ⟨alike, fun scope after ended => ?_⟩
        obtain ⟨reached, kept, rfl, rfl⟩ := ends scope after ended
        exact closes reached kept
  · cases ready with
    | @script own _ _ count scopes pending direct =>
        have pushed : (reached.store.pushScope scope).scopes = scope :: own :: outer := by
          simp [Store.pushScope, scopes]
        have enters : Housed (.script (own :: outer)) (Interpreter.entered { path := some path } scope reached) :=
          .script (by simp [Interpreter.entered, count]) pushed pending direct
        refine (allows env _).runsFile (allows env _) (lines _) (.script count scopes pending direct) enters
          (fun after inside => ?_) place
        cases inside with
        | script count scopes pending direct =>
            have dropped : (Interpreter.left after).store.scopes = own :: outer := by simp [Interpreter.left, scopes]
            exact .script (by simp [Interpreter.left, count]) dropped pending direct

end Files

theorem watches (env : Env σ) (depth : Nat) (requests : List Interpreter.Request) (outer : List Scope) :
    Follows (Housed (.script outer))
      (Interpreter.answersBy env (Interpreter.watched env Interpreter.parsesInBlock (fun _ _ => false) depth) requests)
      (Interpreter.answersBy env (Interpreter.watched env Interpreter.parsesInBlock
        (fun before after => !(before.Poised ∧ before.store.Confines after.store)) depth) requests) := by
  have lines (home : Home) (text : Text) : Follows (Housed home)
      (Interpreter.watched env Interpreter.parsesInBlock (fun _ _ => false) depth text)
      (Interpreter.watched env Interpreter.parsesInBlock
        (fun before after => !(before.Poised ∧ before.store.Confines after.store)) depth text) := by
    refine watched_follows (allows env) (fun before after home housed kept => ?_) (fun _ _ _ _ _ _ _ => trivial)
      (fun _ _ _ _ _ => trivial)
      (fun exec exec' lines home session line housed passes parse target => ?_) depth home text
    · simp [housed.poised, housed.confines kept]
    · cases home with
      | script outer => exact parses lines target housed
      | block own outer =>
          cases housed with
          | block _ _ _ pending _ => simp [Interpreter.parsesInBlock, parse, pending] at passes
  exact (allows env _).answersFollow (lines _) (parses lines) requests

end Housed

namespace Interpreter

/-- Assignments land in the scope they belong to, as long as no inline block runs a script file. In a run of any
lines, texts and script files, nested to any depth, from a session that is poised and runs no inline block: a
run comes to the same if it stops after any statement that starts from a session that is not poised, or changes
other local scopes than it may; and it leaves the session poised. Setting a variable in a poised session
overwrites a global of its name, or else goes to the scope of the file about to run while its inline block runs,
or else to the scope of the running script. What an inline block leaves in its scope is the scope that the file
starts with. -/
theorem assignments_land (env : Env σ) (depth : Nat) (requests : List Request) (session : Session σ)
    (poised : session.Poised) (idle : session.store.pending = [])
    (unnested : answersBy env (watched env parsesInBlock (fun _ _ => false) depth) requests session =
      answers env depth requests session) :
    answersBy env (watched env parsesInBlock
        (fun before after => !(before.Poised ∧ before.store.Confines after.store)) depth) requests session =
      answers env depth requests session ∧
    ((answers env depth requests).leaves session).Poised ∧
    ((answers env depth requests).leaves session).store.pending = [] ∧
    (∀ reached : Session σ, reached.Poised → ∀ name value,
      reached.store.Landed name value (reached.put name value).store) ∧
    (∀ (exec : Text → Run σ Unit) block before scope after, runBlock exec block before = .ok scope after →
      ∃ reached : Session σ,
        Run.deeper 4 (exec block) { before with store := before.store.openPending } = .ok () reached ∧
          scope = reached.store.pending.head?.getD [] ∧
          ∀ frame, ((enterFrame frame scope).leaves after).store.scopes = scope :: reached.store.scopes) := by
  obtain ⟨filled, direct⟩ := poised
  obtain ⟨own, outer, scopes⟩ := List.exists_cons_of_length_eq_add_one filled
  have housed : Housed (.script outer) session :=
    .script (by simpa [scopes] using filled.symm) scopes idle (by simp [direct, idle])
  obtain ⟨same, kept⟩ := Housed.watches env depth requests outer housed
  rw [unnested] at same kept
  have ended : Housed (.script outer) ((answers env depth requests).leaves session) := Meets.leaves kept.meets
  refine ⟨same, ended.poised, ?_, fun _ poised => poised.lands, fun exec block before scope after ran => ?_⟩
  · cases ended with
    | script _ _ pending _ => exact pending
  · rw [runBlock_run] at ran
    split at ran
    · rename_i reached ended
      cases ran
      exact ⟨reached, ended, rfl, fun _ => rfl⟩
    · cases ran

/-- A script file that runs another one, both with inline blocks; the blocks set a global and take away a
variable of the script they stand in. -/
theorem nestedFiles_land :
    let env : Env Unit := {}
    let files : FileTree :=
      { files := [(["f.txt"], "b = a\nparse g.txt \x7bc = b; unset b\x7d\nd = a\n".toUTF8.toList),
          (["g.txt"], "e = c\nx = 3\n".toUTF8.toList)] }
    let requests : List Request :=
      [.text "x = 1\nexport x\n", .file ⟨"f.txt", some "x = 2; a = x"⟩, .line "parse_string 'y = x'"]
    let session := Session.start {} () files
    (session.Poised ∧ session.store.pending = []) ∧
      answersBy env (watched env parsesInBlock (fun _ _ => false) 4) requests session = answers env 4 requests session ∧
      answersBy env (watched env parsesInBlock
        (fun before after => !(before.Poised ∧ before.store.Confines after.store)) 4) requests session =
        answers env 4 requests session := by
  intro env files requests session
  have poised : session.Poised := by decide
  have unnested : answersBy env (watched env parsesInBlock (fun _ _ => false) 4) requests session =
      answers env 4 requests session := Run.eq_of_agree (by decide +kernel)
  exact ⟨⟨poised, rfl⟩, unnested, (assignments_land env 4 requests session poised rfl unnested).1⟩

end Interpreter

end CommandScript
