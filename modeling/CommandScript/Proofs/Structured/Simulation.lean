import CommandScript.Proofs.Structured.Script

/-! Simulation of programs that know nothing of the flow of control by programs that keep it in the
frame. The part of a frame that holds it is set apart as a `Control`: the one program runs from any
session, the other from the same session with a given control in its frame, and both have to end in the
same way, in the same session but for the control. -/

namespace CommandScript

variable {σ α β γ δ : Type}

/-- The part of a frame that the flow of control is kept in. -/
structure Control where
  aliases : AliasTable
  conditions : List Branch
  loops : List Loop
  blocks : Flow.BlockCount

def Session.placed (session : Session σ) (control : Control) : Session σ :=
  { session with
    frame :=
      { session.frame with
        aliases := control.aliases
        conditions := control.conditions
        loops := control.loops
        blocks := control.blocks } }

def Session.control (session : Session σ) : Control :=
  ⟨session.frame.aliases, session.frame.conditions, session.frame.loops, session.frame.blocks⟩

@[simp] theorem Session.placed_control (session : Session σ) : session.placed session.control = session := rfl

@[simp] theorem Session.placed_placed (session : Session σ) (first second : Control) :
    (session.placed first).placed second = session.placed second := rfl

theorem Session.placed_traceable (control : Control) :
    Traceable fun left right : Session σ => left = right.placed control where
  store := by rintro _ _ rfl; rfl
  buffers := by rintro _ _ rfl; rfl
  depth := by rintro _ _ rfl; rfl
  writeFile := by rintro _ _ rfl; rfl
  files := by rintro _ _ rfl; rfl
  host := by rintro _ _ rfl; rfl
  withDepth := by rintro _ _ _ rfl; rfl
  withHost := by rintro _ _ _ rfl; rfl
  writeBytes := by
    rintro _ right bytes rfl
    cases written : right.writeFile <;> simp [Session.writeBytes, Session.placed, written]
  printFile := by rintro _ _ rfl; rfl
  withStore := by rintro _ _ _ rfl; rfl
  report := by rintro _ _ _ rfl; rfl
  output := by rintro _ _ _ rfl; rfl
  withPrintFile := by rintro _ _ _ _ rfl; rfl
  withWriteFile := by rintro _ _ _ _ rfl; rfl
  frame := by rintro _ _ rfl; rfl
  callers := by rintro _ _ rfl; rfl

theorem Session.placed_notable (control : Control) : Notable fun left right : Session σ =>
    left = right.placed control where
  toCommandable := (Session.placed_traceable control).toCommandable
  loopCount := by rintro _ _ rfl; rfl
  withLoopCount := by rintro _ _ _ rfl; rfl
  note := by rintro _ _ _ _ rfl; rfl

/-- Results that agree: both are values, or the same exit, and the sessions differ in the control only.
`Ends` says which values and control belong together, `Fails` which control an exit may leave. -/
inductive Agree (Ends : α → β → Control → Prop) (Fails : Control → Prop) :
    EStateM.Result Exit (Session σ) α → EStateM.Result Exit (Session σ) β → Prop
  | ok {value : α} {other : β} {control : Control} {session : Session σ} :
      Ends value other control → Agree Ends Fails (.ok value (session.placed control)) (.ok other session)
  | error {exit : Exit} {control : Control} {session : Session σ} :
      Fails control → Agree Ends Fails (.error exit (session.placed control)) (.error exit session)

/-- From a given control, the first program does what the second one does. -/
def Simulates (control : Control) (flat : Run σ α) (tree : Run σ β) (Ends : α → β → Control → Prop)
    (Fails : Control → Prop) : Prop :=
  ∀ session : Session σ, Agree Ends Fails (flat (session.placed control)) (tree session)

namespace Agree

variable {flat : Run σ α} {tree : Run σ β} {left right : Session σ} {Ends Ends' : α → β → Control → Prop}
  {Fails Fails' : Control → Prop}

theorem weaken (given : Agree Ends Fails (flat left) (tree right))
    (ends : ∀ value other after, Ends value other after → Ends' value other after)
    (fails : ∀ after, Fails after → Fails' after) : Agree Ends' Fails' (flat left) (tree right) := by
  generalize flat left = before at given ⊢
  generalize tree right = after at given ⊢
  cases given with
  | ok ended => exact .ok (ends _ _ _ ended)
  | error failed => exact .error (fails _ failed)

theorem bind {flatNext : α → Run σ γ} {treeNext : β → Run σ δ} {Finally : γ → δ → Control → Prop}
    (first : Agree Ends Fails (flat left) (tree right))
    (second : ∀ value other after, Ends value other after →
      Simulates after (flatNext value) (treeNext other) Finally Fails) :
    Agree Finally Fails ((flat >>= flatNext) left) ((tree >>= treeNext) right) := by
  change Agree Finally Fails (EStateM.bind flat flatNext left) (EStateM.bind tree treeNext right)
  unfold EStateM.bind
  generalize flat left = before at first ⊢
  generalize tree right = after at first ⊢
  cases first with
  | ok ended => exact second _ _ _ ended _
  | error failed => exact .error failed

theorem attempt (inner : Agree Ends Fails (flat left) (tree right)) :
    Agree
      (fun result other after =>
        (∃ value value', result = .ok value ∧ other = .ok value' ∧ Ends value value' after) ∨
          ∃ exit, result = .error exit ∧ other = .error exit ∧ Fails after)
      Fails' (Run.attempt flat left) (Run.attempt tree right) := by
  unfold Run.attempt
  generalize flat left = before at inner ⊢
  generalize tree right = after at inner ⊢
  cases inner with
  | ok ended => exact .ok (.inl ⟨_, _, rfl, rfl, ended⟩)
  | error failed => exact .ok (.inr ⟨_, rfl, rfl, failed⟩)

theorem onError {flatHandler : ScriptError → Run σ α} {treeHandler : ScriptError → Run σ β}
    {Broken : Control → Prop} (inner : Agree Ends Fails (flat left) (tree right))
    (handled : ∀ error after, Fails after →
      Simulates after (flatHandler error) (treeHandler error) Ends Broken)
    (others : ∀ after, Fails after → Broken after) :
    Agree Ends Broken (Run.onError flat flatHandler left) (Run.onError tree treeHandler right) := by
  refine bind inner.attempt fun result other after how => ?_
  rcases how with ⟨value, value', rfl, rfl, reached⟩ | ⟨exit, rfl, rfl, reached⟩
  · exact fun _ => .ok reached
  · cases exit with
    | error error => exact handled error after reached
    | returned => exact fun _ => .error (others _ reached)
    | stopped code => exact fun _ => .error (others _ reached)
    | fault fault => exact fun _ => .error (others _ reached)
    | exhausted => exact fun _ => .error (others _ reached)

end Agree

namespace Simulates

variable {control : Control} {flat : Run σ α} {tree : Run σ β} {Ends Ends' : α → β → Control → Prop}
  {Fails Fails' : Control → Prop}

theorem weaken (given : Simulates control flat tree Ends Fails)
    (ends : ∀ value other after, Ends value other after → Ends' value other after)
    (fails : ∀ after, Fails after → Fails' after) : Simulates control flat tree Ends' Fails' :=
  fun session => (given session).weaken ends fails

theorem pure {value : α} {other : β} (ended : Ends value other control) :
    Simulates control (pure value : Run σ α) (pure other : Run σ β) Ends Fails :=
  fun _ => .ok ended

theorem throw {exit : Exit} (failed : Fails control) :
    Simulates control (throw exit : Run σ α) (throw exit : Run σ β) Ends Fails :=
  fun _ => .error failed

theorem bind {flatNext : α → Run σ γ} {treeNext : β → Run σ δ} {Finally : γ → δ → Control → Prop}
    (first : Simulates control flat tree Ends Fails)
    (second : ∀ value other after, Ends value other after →
      Simulates after (flatNext value) (treeNext other) Finally Fails) :
    Simulates control (flat >>= flatNext) (tree >>= treeNext) Finally Fails :=
  fun session => (first session).bind second

theorem next {flatNext : α → Run σ γ} {treeNext : β → Run σ δ} {Finally : γ → δ → Control → Prop}
    {after : Control} (first : Simulates control flat tree (fun _ _ reached => reached = after) Fails)
    (second : ∀ value other, Simulates after (flatNext value) (treeNext other) Finally Fails) :
    Simulates control (flat >>= flatNext) (tree >>= treeNext) Finally Fails := by
  refine bind first fun value other reached same => ?_
  subst same
  exact second value other

theorem silent (after : Control) {flatNext : α → Run σ γ} {Finally : γ → β → Control → Prop} {value : α}
    (step : ∀ session : Session σ, flat (session.placed control) = .ok value (session.placed after))
    (rest : Simulates after (flatNext value) tree Finally Fails) :
    Simulates control (flat >>= flatNext) tree Finally Fails := by
  intro session
  change Agree Finally Fails (EStateM.bind flat flatNext (session.placed control)) (tree session)
  unfold EStateM.bind
  rw [step session]
  exact rest session

theorem settled (after : Control) {value : α} {other : β}
    (step : ∀ session : Session σ, flat (session.placed control) = .ok value (session.placed after))
    (ended : Ends value other after) : Simulates control flat (Pure.pure other) Ends Fails := by
  intro session
  rw [step session]
  exact .ok ended

theorem returning {Finally : α → δ → Control → Prop} {f : β → δ} (given : Simulates control flat tree Ends Fails)
    (ends : ∀ value other after, Ends value other after → Finally value (f other) after) :
    Simulates control flat (do return f (← tree)) Finally Fails := by
  have both : Simulates control (flat >>= Pure.pure) (do return f (← tree)) Finally Fails :=
    bind given fun value other after ended => pure (ends value other after ended)
  rwa [bind_pure] at both

theorem attempt (inner : Simulates control flat tree Ends Fails) :
    Simulates control (Run.attempt flat) (Run.attempt tree)
      (fun result other after =>
        (∃ value value', result = .ok value ∧ other = .ok value' ∧ Ends value value' after) ∨
          ∃ exit, result = .error exit ∧ other = .error exit ∧ Fails after)
      Fails' :=
  fun session => (inner session).attempt

theorem always {flatAfter treeAfter : Run σ Unit} {Finally : α → β → Control → Prop}
    {Broken : Control → Prop}
    (first : Simulates control flat tree Ends Fails)
    (ended : ∀ value other after, Ends value other after →
      Simulates after flatAfter treeAfter (fun _ _ last => Finally value other last) Broken)
    (failed : ∀ after, Fails after → Simulates after flatAfter treeAfter (fun _ _ last => Broken last) Broken) :
    Simulates control (Run.always flat flatAfter) (Run.always tree treeAfter) Finally Broken := by
  refine bind first.attempt fun result other after how => ?_
  rcases how with ⟨value, value', rfl, rfl, reached⟩ | ⟨exit, rfl, rfl, reached⟩
  · exact bind (ended _ _ _ reached) fun _ _ last closed => pure closed
  · exact bind (failed _ reached) fun _ _ last closed => throw closed

theorem onError {flatHandler : ScriptError → Run σ α} {treeHandler : ScriptError → Run σ β}
    {Broken : Control → Prop} (inner : Simulates control flat tree Ends Fails)
    (handled : ∀ error after, Fails after →
      Simulates after (flatHandler error) (treeHandler error) Ends Broken)
    (others : ∀ after, Fails after → Broken after) :
    Simulates control (Run.onError flat flatHandler) (Run.onError tree treeHandler) Ends Broken :=
  fun session => (inner session).onError handled others

theorem same {program : Run σ α} (kept : Run.Respects (fun left right => left = right.placed control) program) :
    Simulates control program program (fun value other after => value = other ∧ after = control)
      (fun after => after = control) := by
  intro session
  have linked := @kept (session.placed control) session rfl
  generalize program (session.placed control) = before at linked ⊢
  generalize program session = after at linked ⊢
  cases linked with
  | ok related =>
      subst related
      exact .ok ⟨rfl, rfl⟩
  | error related =>
      subst related
      exact .error rfl

theorem change {f : Session σ → Session σ} {after : Control} {Finally : PUnit → PUnit → Control → Prop}
    (moved : ∀ session, f (session.placed control) = (f session).placed after) (ended : Finally () () after) :
    Simulates control (modify f : Run σ Unit) (modify f) Finally Fails := by
  intro session
  have step : (modify f : Run σ Unit) (session.placed control) = .ok () ((f session).placed after) :=
    congrArg (EStateM.Result.ok ()) (moved session)
  rw [step]
  exact .ok ended

theorem read {flatNext : Session σ → Run σ α} {treeNext : Session σ → Run σ β}
    (next : ∀ session, Simulates control (flatNext (session.placed control)) (treeNext session) Ends Fails) :
    Simulates control (get >>= flatNext) (get >>= treeNext) Ends Fails :=
  fun session => next session session

theorem observe {flatNext : Session σ → Run σ α}
    (next : ∀ session : Session σ, Simulates control (flatNext (session.placed control)) tree Ends Fails) :
    Simulates control (get >>= flatNext) tree Ends Fails :=
  fun session => next session session

theorem deeper {calls : Nat} (inner : Simulates control flat tree Ends Fails) (limit : Fails control) :
    Simulates control (Run.deeper calls flat) (Run.deeper calls tree) Ends Fails := by
  refine read fun session => ?_
  extract_lets depth flatDeeper treeDepth treeDeeper
  have resets (depth : Nat) {after : Control} {Finally : PUnit → PUnit → Control → Prop}
      (reached : Finally () () after) :
      Simulates after (modify ({ · with depth }) : Run σ Unit) (modify ({ · with depth })) Finally Fails :=
    change (fun _ => rfl) reached
  have goesOn : Simulates control (flatDeeper ()) (treeDeeper ()) Ends Fails := by
    have set : Simulates control (modify ({ · with depth := depth + calls }) : Run σ Unit)
        (modify ({ · with depth := depth + calls })) (fun _ _ after => after = control) Fails := resets _ rfl
    refine next set fun _ _ => ?_
    exact always inner (fun _ _ _ ended => resets _ ended) fun _ failed => resets _ failed
  have refused : Simulates control (MonadExcept.throw Exit.exhausted : Run σ PUnit)
      (MonadExcept.throw Exit.exhausted : Run σ PUnit) (fun _ _ _ => False) Fails := throw limit
  by_cases tooDeep : Run.callLimit < session.depth + calls
  · rw [if_pos (show Run.callLimit < depth + calls from tooDeep),
      if_pos (show Run.callLimit < treeDepth + calls from tooDeep)]
    exact bind refused fun _ _ _ => False.elim
  · rw [if_neg (show ¬Run.callLimit < depth + calls from tooDeep),
      if_neg (show ¬Run.callLimit < treeDepth + calls from tooDeep)]
    exact goesOn

end Simulates

namespace Control

/-- The control after a part of a script that came to its end; `left` tells whether it left the innermost
loop. -/
structure Reaches (control : Control) (left : Bool) (after : Control) : Prop where
  aliases : after.aliases = control.aliases
  conditions : after.conditions = control.conditions
  loops : after.loops =
    if left then control.loops.modifyHead ({ · with mode := .leaving }) else control.loops
  inside : left = true → control.loops ≠ []

/-- The control after a part of a script that failed: further chains may be open. -/
structure Breaks (control after : Control) : Prop where
  aliases : after.aliases = control.aliases
  conditions : control.conditions <:+ after.conditions
  loops : after.loops = control.loops

variable {control after last : Control} {left : Bool}

theorem Reaches.refl (control : Control) (blocks : Flow.BlockCount) : control.Reaches false { control with blocks } :=
  ⟨rfl, rfl, rfl, nofun⟩

theorem Reaches.eq (reached : control.Reaches left after) :
    after =
      { control with
        loops := if left then control.loops.modifyHead ({ · with mode := .leaving }) else control.loops
        blocks := after.blocks } := by
  obtain ⟨_, _, _, _⟩ := after
  obtain ⟨aliases, conditions, loops, _⟩ := reached
  dsimp only at aliases conditions loops
  rw [aliases, conditions, loops]

theorem Reaches.trans (first : control.Reaches false after) (second : after.Reaches left last) :
    control.Reaches left last where
  aliases := second.aliases.trans first.aliases
  conditions := second.conditions.trans first.conditions
  loops := by
    have same : after.loops = control.loops := first.loops
    rw [second.loops, same]
  inside left := by
    have same : after.loops = control.loops := first.loops
    rw [← same]
    exact second.inside left

theorem Breaks.rfl (control : Control) : control.Breaks control := ⟨Eq.refl _, List.suffix_refl _, Eq.refl _⟩

theorem Breaks.refl (control : Control) (blocks : Flow.BlockCount) : control.Breaks { control with blocks } :=
  ⟨Eq.refl _, List.suffix_refl _, Eq.refl _⟩

theorem Reaches.breaks (first : control.Reaches false after) (second : after.Breaks last) :
    control.Breaks last where
  aliases := second.aliases.trans first.aliases
  conditions := first.conditions ▸ second.conditions
  loops := second.loops.trans first.loops

end Control

end CommandScript
