import CommandScript.Proofs.Confinement.Scripts
import CommandScript.Proofs.Release.Loops
import CommandScript.Proofs.Structured.Replaying

/-! Contracts of programs: what holds of the session that comes with a value, and what of the one that
comes with an exit. An invariant that every way out keeps is a special case; here an exit may leave less than
a value does. -/

namespace CommandScript

variable {σ α β : Type}

namespace Run

/-- The end of a program: a value comes with one property of the session, and an exit with another. -/
inductive Ended (Ends : α → Session σ → Prop) (Fails : Exit → Session σ → Prop) :
    EStateM.Result Exit (Session σ) α → Prop
  | ok {value : α} {after : Session σ} : Ends value after → Ended Ends Fails (.ok value after)
  | error {exit : Exit} {after : Session σ} : Fails exit after → Ended Ends Fails (.error exit after)

/-- From a session, a program ends as its contract says. -/
def Meets (Ends : α → Session σ → Prop) (Fails : Exit → Session σ → Prop) (program : Run σ α) (session : Session σ) :
    Prop := Ended Ends Fails (program session)

namespace Meets

variable {Ends Ends' : α → Session σ → Prop} {Fails Fails' : Exit → Session σ → Prop} {session : Session σ}
  {program : Run σ α}

theorem pure {value : α} (holds : Ends value session) : Meets Ends Fails (pure value) session := .ok holds

theorem throw {exit : Exit} (holds : Fails exit session) : Meets Ends Fails (throw exit : Run σ α) session :=
  .error holds

theorem change {Ends : Unit → Session σ → Prop} {f : Session σ → Session σ} (holds : Ends () (f session)) :
    Meets Ends Fails (modify f) session := .ok holds

theorem mono (meets : Meets Ends Fails program session) (ends : ∀ value after, Ends value after → Ends' value after)
    (fails : ∀ exit after, Fails exit after → Fails' exit after) : Meets Ends' Fails' program session := by
  unfold Meets at meets ⊢
  generalize program session = result at meets ⊢
  cases meets with
  | ok ended => exact .ok (ends _ _ ended)
  | error failed => exact .error (fails _ _ failed)

theorem of_eq {other : Run σ α} {reached : Session σ} (same : program session = other reached)
    (meets : Meets Ends Fails other reached) : Meets Ends Fails program session := by
  unfold Meets
  rw [same]
  exact meets

theorem bind {first : Run σ β} {next : β → Run σ α} {Then : β → Session σ → Prop}
    (meets : Meets Then Fails first session)
    (second : ∀ value after, Then value after → Meets Ends Fails (next value) after) :
    Meets Ends Fails (first >>= next) session := by
  unfold Meets at meets
  change Ended Ends Fails (EStateM.bind first next session)
  unfold EStateM.bind
  generalize first session = result at meets ⊢
  cases meets with
  | ok ended => exact second _ _ ended
  | error failed => exact .error failed

theorem read {next : Session σ → Run σ α} (second : Meets Ends Fails (next session) session) :
    Meets Ends Fails (get >>= next) session := second

theorem change_bind {f : Session σ → Session σ} {next : Unit → Run σ α}
    (second : Meets Ends Fails (next ()) (f session)) :
    Meets Ends Fails (modify f >>= next) session := second

theorem attempt_bind {first : Run σ β} {next : Except Exit β → Run σ α} {Then : β → Session σ → Prop}
    (inner : Meets Then Fails' first session)
    (ended : ∀ value after, Then value after → Meets Ends Fails (next (.ok value)) after)
    (left : ∀ exit after, Fails' exit after → Meets Ends Fails (next (.error exit)) after) :
    Meets Ends Fails (Run.attempt first >>= next) session := by
  unfold Meets at inner
  change Ended Ends Fails (EStateM.bind (Run.attempt first) next session)
  unfold EStateM.bind Run.attempt
  generalize first session = result at inner ⊢
  cases inner with
  | ok holds => exact ended _ _ holds
  | error holds => exact left _ _ holds

theorem always {after : Run σ Unit} (first : Meets Ends' Fails' program session)
    (ended : ∀ value reached, Ends' value reached → Meets (fun _ => Ends value) Fails after reached)
    (left : ∀ exit reached, Fails' exit reached → Meets (fun _ => Fails exit) Fails after reached) :
    Meets Ends Fails (Run.always program after) session := by
  refine attempt_bind first (fun value reached holds => ?_) fun exit reached holds => ?_
  · exact bind (ended value reached holds) fun _ _ still => pure still
  · exact bind (left exit reached holds) fun _ _ still => throw still

theorem onError {handler : ScriptError → Run σ α} (inner : Meets Ends Fails' program session)
    (handled : ∀ error reached, Fails' (.error error) reached → Meets Ends Fails (handler error) reached)
    (passes : ∀ exit reached, Fails' exit reached → (∀ error, exit ≠ .error error) → Fails exit reached) :
    Meets Ends Fails (Run.onError program handler) session := by
  refine attempt_bind inner (fun _ _ holds => pure holds) fun exit reached holds => ?_
  cases exit with
  | error error => exact handled error reached holds
  | _ => exact throw (passes _ _ holds nofun)

theorem caught_bind {first : Run σ β} {next : Except ScriptError β → Run σ α} {Then : β → Session σ → Prop}
    (inner : Meets Then Fails' first session)
    (ended : ∀ value after, Then value after → Meets Ends Fails (next (.ok value)) after)
    (failed : ∀ error after, Fails' (.error error) after → Meets Ends Fails (next (.error error)) after)
    (passes : ∀ exit after, Fails' exit after → (∀ error, exit ≠ .error error) → Fails exit after) :
    Meets Ends Fails (Run.caught first >>= next) session := by
  unfold Run.caught
  rw [bind_assoc]
  refine attempt_bind inner ended fun exit after holds => ?_
  cases exit with
  | error error => exact failed error after holds
  | _ => exact throw (passes _ _ holds nofun)

theorem forM {Inv : Session σ → Prop} {items : List β} {program : β → Run σ PUnit} (holds : Inv session)
    (each : ∀ item reached, Inv reached → Meets (fun _ => Inv) Fails (program item) reached) :
    Meets (fun _ => Inv) Fails (items.forM program) session := by
  induction items generalizing session with
  | nil => exact pure holds
  | cons item rest ih => exact bind (each item session holds) fun _ _ still => ih still

theorem check {refused : Prop} [Decidable refused] {exit : Exit} (left : Fails exit session)
    (goesOn : Meets Ends Fails program session) :
    Meets Ends Fails (if refused then (do let _ ← (MonadExcept.throw exit : Run σ PUnit); program) else program)
      session := by
  split
  · exact .error left
  · exact goesOn

theorem deeper {calls : Nat}
    (inner : ¬callLimit < session.depth + calls →
      Meets Ends Fails program { session with depth := session.depth + calls })
    (endsStable : ∀ value after depth, Ends value after → Ends value { after with depth })
    (failsStable : ∀ exit after depth, Fails exit after → Fails exit { after with depth })
    (refused : Fails .exhausted session) : Meets Ends Fails (Run.deeper calls program) session := by
  refine read ?_
  dsimp only
  split
  · exact .error refused
  · rename_i allowed
    refine change_bind (always (inner allowed) (fun value reached holds => ?_) fun exit reached holds => ?_)
    · exact change (endsStable value reached _ holds)
    · exact change (failsStable exit reached _ holds)

theorem ran (meets : Meets Ends Fails program session) :
    Meets (fun value after => Ends value after ∧ program session = .ok value after)
      (fun exit after => Fails exit after ∧ program session = .error exit after) program session := by
  unfold Meets at meets ⊢
  generalize program session = result at meets ⊢
  cases meets with
  | ok ended => exact .ok ⟨ended, rfl⟩
  | error failed => exact .error ⟨failed, rfl⟩

theorem yielding {P : α → Prop} (meets : Meets Ends Fails program session) (yields : Yields program P) :
    Meets (fun value after => Ends value after ∧ P value) Fails program session := by
  have known := yields session
  unfold Meets at meets ⊢
  generalize program session = result at meets known ⊢
  cases meets with
  | ok ended => exact .ok ⟨ended, known _ _ rfl⟩
  | error failed => exact .error failed

theorem leaves {P : Session σ → Prop} (meets : Meets (fun _ => P) (fun _ => P) program session) :
    P (program.leaves session) := by
  unfold Meets at meets
  unfold Run.leaves
  generalize program session = result at meets ⊢
  cases meets with
  | ok holds => exact holds
  | error holds => exact holds

end Meets

theorem Kept.meets {Inv : Session σ → Prop} {leaves : Exit → Prop} {program : Run σ α} {session : Session σ}
    (kept : Kept Inv leaves (program session)) : Meets (fun _ => Inv) (fun _ => Inv) program session := by
  unfold Meets
  generalize program session = result at kept ⊢
  cases kept with
  | ok holds => exact .ok holds
  | error holds _ => exact .error holds

end Run

def Framed (reference left right : Session σ) : Prop := left = right ∧ left.frame = reference.frame

theorem Framed.traceable (reference : Session σ) : Traceable (Framed reference) :=
  SameWith.traceable fun _ _ same frame _ _ _ => frame.trans same

theorem Framed.notable (reference : Session σ) : Notable (Framed reference) :=
  SameWith.notable fun _ _ same frame _ => frame.trans same

/-- A program that cannot tell apart sessions with the same frame leaves the frame alone. -/
theorem Run.Meets.sameFrame {program : Run σ α} (respects : ∀ reference, Run.Respects (Framed reference) program)
    (session : Session σ) :
    Run.Meets (fun _ after => after.frame = session.frame) (fun _ after => after.frame = session.frame) program
      session := by
  have linked := @respects session session session ⟨rfl, rfl⟩
  unfold Run.Meets
  generalize program session = result at linked ⊢
  cases linked with
  | ok framed => exact .ok framed.2
  | error framed => exact .error framed.2

theorem Run.Meets.framed {program : Run σ α} (respects : ∀ reference, Run.Respects (Framed reference) program)
    {P : Frame → Prop} {session : Session σ} (holds : P session.frame) :
    Run.Meets (fun _ after => P after.frame) (fun _ after => P after.frame) program session :=
  (sameFrame respects session).mono (fun _ _ same => same ▸ holds) fun _ _ same => same ▸ holds

theorem Run.Respects.check {R : Session σ → Session σ → Prop} (refused : Prop) [Decidable refused] (exit : Exit)
    {next : Run σ α} (goesOn : Respects R next) :
    Respects R (if refused then (do let _ ← (MonadExcept.throw exit : Run σ PUnit); next) else next) := by
  split
  · exact bind (throw exit) fun _ => goesOn
  · exact goesOn

theorem Framed.runLeaveFile (reference : Session σ) : Run.Respects (Framed reference) Command.runLeaveFile := by
  refine Run.Respects.read (fun left right framed => by rw [framed.1]) fun session => ?_
  split
  · exact Run.Respects.throw _
  · exact Run.Respects.fail _

theorem Framed.runQuit (env : Env σ) (rest : Text) (reference : Session σ) :
    Run.Respects (Framed reference) (Command.runQuit env rest) := by
  have substitutes := Words.substitute_respects (Framed.traceable reference).toEvaluable env rest
  refine Run.Respects.read (fun left right framed => by rw [framed.1]) fun session => ?_
  dsimp only
  split
  · exact Run.Respects.pure _
  refine Run.Respects.check _ _ (Run.Respects.bind substitutes fun text => ?_)
  refine Run.Respects.bind (Run.Respects.ofFault _) fun code => ?_
  split
  · exact Run.Respects.throw _
  · exact Run.Respects.fail _

theorem Session.noteEnd_frame (session : Session σ) (loop : Loop) : (session.noteEnd loop).frame = session.frame := by
  unfold Session.noteEnd
  split
  · rfl
  · split <;> rfl

theorem AliasTable.define_length (tables : List AliasTable) (target : Nat) (entry : Alias) :
    (define tables target entry).length = tables.length := by
  unfold define
  split <;> simp

namespace Frame

theorem withAliasTables_view {view : Loop → β} (blind : ∀ (loop : Loop) aliases, view { loop with aliases } = view loop)
    {frame : Frame} {tables : List AliasTable} (enough : tables.length = frame.loops.length + 1) :
    (frame.withAliasTables tables).loops.map view = frame.loops.map view := by
  have zipped (loops : List Loop) (inner : List AliasTable) (same : loops.length = inner.length) :
      ((loops.zip inner).map fun pair => { pair.1 with aliases := pair.2 }).map view = loops.map view := by
    induction loops generalizing inner with
    | nil => rfl
    | cons loop rest ih =>
        cases inner with
        | nil => cases same
        | cons table others =>
            simp only [List.zip_cons_cons, List.map_cons, blind]
            rw [ih others (by simpa using same)]
  exact zipped frame.loops _ (by simp [enough])

theorem modifyLoopAt_view {view : Loop → β} {f : Loop → Loop} (blind : ∀ loop, view (f loop) = view loop)
    (frame : Frame) (depth : Nat) : (frame.modifyLoopAt depth f).loops.map view = frame.loops.map view := by
  have modified (loops : List Loop) (index : Nat) : (loops.modify index f).map view = loops.map view := by
    induction loops generalizing index with
    | nil => simp
    | cons loop rest ih => cases index <;> simp [blind, ih]
  simp only [modifyLoopAt, List.map_reverse, modified, List.reverse_reverse]

end Frame

end CommandScript
