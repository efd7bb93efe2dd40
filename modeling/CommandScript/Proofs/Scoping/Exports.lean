import CommandScript.Proofs.Scoping.Watching
import CommandScript.Proofs.Variables.Writes

/-! Names that are not exported. Only an export can make a name global that a local scope holds: without one, a
name that is not both local and global in a script stays so, whatever the script runs, files and inline blocks
included. -/

namespace CommandScript

variable {σ α : Type}

open Run

/-- The running script has a scope of its own, no file is about to run, and the name is not both local and global. -/
structure Store.Single (store : Store) (name : Text) : Prop extends store.Sees name where
  filled : store.scopes ≠ []

/-- A point of a run, as seen from the script that has the name: the scopes around the innermost one, whether
that is the scope of the script, and whether no file is about to run. -/
structure Stage where
  outer : List Scope
  own : Bool
  direct : Bool

/-- The name is global or not as it was, and where the script goes on it is not both local and global. -/
structure Unshared (name : Text) (global : Bool) (stage : Stage) (session : Session σ) : Prop where
  scopes : ∃ own, session.store.scopes = own :: stage.outer ∧ (stage.own → global → own.has name = false)
  globals : session.store.globals.has name = global
  direct : stage.direct → session.store.redirected = false

namespace Unshared

variable {name : Text} {global : Bool} {stage : Stage} {session after : Session σ}

theorem of_single (single : session.store.Single name) :
    ∃ outer, Unshared name (session.store.globals.has name) ⟨outer, true, true⟩ session := by
  obtain ⟨⟨direct, seen⟩, filled⟩ := single
  obtain ⟨own, outer, scopes⟩ := List.exists_cons_of_ne_nil filled
  refine ⟨outer, ⟨own, scopes, fun _ global => ?_⟩, rfl, fun _ => direct⟩
  rw [Store.Hides, scopes] at seen
  exact Bool.eq_false_iff.mpr fun here => seen ⟨here, global⟩

theorem single {outer : List Scope} (unshared : Unshared name global ⟨outer, true, true⟩ session) :
    session.store.Single name := by
  obtain ⟨⟨own, scopes, absent⟩, globals, direct⟩ := unshared
  refine ⟨⟨direct rfl, fun hides => ?_⟩, by simp [scopes]⟩
  obtain ⟨here, known⟩ := hides
  rw [scopes] at here
  have gone := absent rfl (globals ▸ known)
  exact absurd (here.symm.trans gone) (by decide)

theorem congr (unshared : Unshared name global stage session) (store : after.store = session.store) :
    Unshared name global stage after :=
  ⟨store ▸ unshared.scopes, store ▸ unshared.globals, store ▸ unshared.direct⟩

theorem setGlobal (unshared : Unshared name global stage session) {other : Text} (value : Text)
    (kept : other = name → global = true) : Unshared name global stage (session.setGlobal other value) := by
  refine ⟨unshared.scopes, ?_, unshared.direct⟩
  rw [Session.setGlobal, Store.setGlobal, Scope.has_set, unshared.globals]
  by_cases same : name = other
  · simp [same, kept same.symm]
  · simp [same]

theorem put (unshared : Unshared name global stage session) (other value : Text) :
    Unshared name global stage (session.put other value) := by
  cases known : session.store.globals.has other with
  | true =>
      rw [Session.put, Store.set, if_pos known]
      exact unshared.setGlobal value fun same => unshared.globals ▸ same ▸ known
  | false =>
      obtain ⟨⟨own, scopes, absent⟩, globals, direct⟩ := unshared
      rw [Session.put, Store.set, if_neg (by simp [known])]
      split
      · exact ⟨⟨own, scopes, absent⟩, globals, direct⟩
      · simp only [Store.updateInnermost, scopes]
        refine ⟨⟨own.set other value, rfl, fun here shared => ?_⟩, globals, direct⟩
        have differs : name ≠ other := by
          rintro rfl
          exact absurd (known.symm.trans (globals.trans shared)) (by decide)
        simp [differs, absent here shared]

theorem delete (unshared : Unshared name global stage session) (other : Text) :
    Unshared name global stage { session with store := (session.store.delete other).2 } := by
  obtain ⟨⟨own, scopes, absent⟩, globals, direct⟩ := unshared
  simp only [Store.delete, Store.updateInnermost, scopes]
  refine ⟨⟨own.erase other, rfl, fun here shared => ?_⟩, globals, direct⟩
  exact Bool.eq_false_iff.mpr fun found => Bool.eq_false_iff.mp (absent here shared) (own.has_erase other name found)

theorem publish (unshared : Unshared name global stage session) {other : Text} {store : Store}
    (differs : Text.trim other ≠ name) (published : session.store.publish other = .ok store) :
    Unshared name global stage { session with store } := by
  simp only [Store.publish] at published
  split at published
  · cases published
  split at published
  · cases published
  · cases published
    exact unshared.setGlobal _ fun same => absurd same differs

theorem allows (env : Env σ) (name : Text) (global : Bool) (stage : Stage) :
    Allows env (fun _ => True) (Text.trim · ≠ name) (Unshared name global stage) where
  quiet unshared store _ _ := unshared.congr store
  put value _ unshared := unshared.put _ value
  delete name unshared := unshared.delete name
  publish differs published unshared := unshared.publish differs published
  push _ unshared := unshared.congr rfl
  loops _ _ _ := trivial
  checked _ := trivial
  index := trivial
  replies _ _ _ _ _ _ _ := trivial
  listens _ _ _ _ _ := trivial

theorem parses {env : Env σ} {exec exec' : Text → Run σ Unit}
    (lines : ∀ stage text, Follows (Unshared name global stage) (exec text) (exec' text)) (target : ScriptTarget) :
    Follows (Unshared name global stage) (Interpreter.parseFile env exec target)
      (Interpreter.parseFile env exec' target) := by
  intro session unshared
  refine (allows env name global stage).parsesFile unshared
    (fun _ reached => Unshared name global stage reached) unshared
    (fun block => ?_) (fun scope reached path place ready => ?_) target
  · have opens : Unshared name global { stage with direct := false }
        { session with store := session.store.openPending } := ⟨unshared.scopes, unshared.globals, nofun⟩
    have closes (reached : Session σ) (kept : Unshared name global { stage with direct := false } reached) :
        Unshared name global stage { reached with store := reached.store.closePending.2 } :=
      ⟨kept.scopes, kept.globals, fun _ => rfl⟩
    obtain ⟨alike, ends⟩ := (allows env name global _).runsBlock (lines _) opens closes block
    refine ⟨alike, fun scope after ended => ?_⟩
    obtain ⟨reached, kept, rfl, rfl⟩ := ends scope after ended
    exact closes reached kept
  · obtain ⟨⟨own, scopes, absent⟩, globals, direct⟩ := ready
    have pushed : (reached.store.pushScope scope).scopes = scope :: own :: stage.outer := by
      simp [Store.pushScope, scopes]
    have enters : Unshared name global ⟨own :: stage.outer, false, stage.direct⟩
        (Interpreter.entered { path := some path } scope reached) := ⟨⟨scope, pushed, nofun⟩, globals, direct⟩
    refine (allows env name global stage).runsFile (allows env name global _) (lines _)
      ⟨⟨own, scopes, absent⟩, globals, direct⟩ enters (fun last inside => ?_) place
    obtain ⟨⟨inner, whole, -⟩, globals, direct⟩ := inside
    exact ⟨⟨own, by simp [Interpreter.left, whole], absent⟩, globals, direct⟩

end Unshared

namespace Interpreter

def exports (name : Text) (_ : Session σ) (line : Text) : Bool := (published? line).any (Text.trim · = name)

def withoutExport (env : Env σ) (name : Text) (depth : Nat) : Text → Run σ Unit :=
  watched env (exports name) (fun _ _ => false) depth

variable {env : Env σ} {name : Text} {global : Bool}

theorem withoutExport_follows (stage : Stage) (depth : Nat) (text : Text) :
    Follows (Unshared name global stage) (withoutExport env name depth text) (withoutExport env name depth text) := by
  refine watched_follows (fun stage => Unshared.allows env name global stage) (fun _ _ _ _ _ => rfl)
    (fun _ _ _ _ _ _ _ => trivial) (fun _ line free given shared => ?_)
    (fun _ _ lines _ _ _ unshared _ _ target => Unshared.parses lines target unshared) depth stage text
  simpa [exports, shared] using free

theorem leaves_single {program : Run σ α} {session : Session σ}
    (keeps : ∀ global outer, Keeps (Unshared name global ⟨outer, true, true⟩) Exit.any program)
    (single : session.store.Single name) : (program.leaves session).store.Single name := by
  obtain ⟨outer, unshared⟩ := Unshared.of_single single
  exact Unshared.single (Meets.leaves (keeps _ outer unshared).meets)

theorem collect_single {session : Session σ} (depth : Nat) (line : Text) (single : session.store.Single name) :
    ((collect env (withoutExport env name depth) line).leaves session).store.Single name :=
  leaves_single (fun _ _ _ unshared => ((Unshared.allows env name _ _).collects
    (fun text => withoutExport_follows _ depth text) line unshared).kept) single

theorem parseFile_single {session : Session σ} (depth : Nat) (target : ScriptTarget)
    (single : session.store.Single name) :
    ((parseFile env (withoutExport env name depth) target).leaves session).store.Single name :=
  leaves_single (fun _ _ _ unshared =>
    (Unshared.parses (fun stage text => withoutExport_follows stage depth text) target
    unshared).kept) single

end Interpreter

end CommandScript
