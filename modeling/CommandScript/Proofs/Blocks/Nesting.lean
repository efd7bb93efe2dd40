import CommandScript.Proofs.Blocks.Contracts

/-! Bodies of loops that are well nested: every chain is closed by a line of the loop that it was opened in, and no line
turns or closes a chain that was open before. Such bodies are accepted when they are read, and each of their lines
moves the conditional stack by what its role says. -/

namespace CommandScript

variable {σ : Type}

open Run

namespace Interpreter

/-- The line as it is run: aliases are replaced, but not in a line that removes them. -/
def rewrite (tables : List AliasTable) (line : Text) : Text :=
  if keepsAliases line then line else AliasTable.apply tables line

theorem rewrite_unaliased (tables : List AliasTable) : rewrite (tables ++ [[]]) = rewrite tables := by
  funext line
  simp only [rewrite, AliasTable.apply, List.filter_append, List.filter_cons, List.filter_nil, ne_eq, not_true_eq_false,
    decide_false, Bool.false_eq_true, ↓reduceIte, List.append_nil]

/-- Statements that leave the aliases alone and run no lines in the frame of their script: a script file that is
run has a frame of its own, an inline block has not. -/
def isSteady (line : Text) : Bool :=
  match commandOf? line with
  | some .addAlias | some .removeAlias | some .parseString => false
  | some .parse => ((ScriptTarget.splitBlock (Text.trim (Text.cutOrAll ' ' line).2)).2.filter (!·.isEmpty)).isNone
  | _ => true

end Interpreter

theorem ScriptTarget.read_block {lookup : Text → Except Failure (Option Text)} {argument : Text} {target : ScriptTarget}
    (found : read lookup argument = .ok target) :
    target.block = (splitBlock (Text.trim argument)).2.filter (!·.isEmpty) := by
  unfold read at found
  dsimp only at found
  split at found
  · cases found
  split at found
  · cases found
  split at found
  · cases found
  · cases found
    rfl

namespace Flow

def IsBare (line : Text) : Prop := Text.lower line = "elseif" ∨ Text.lower line = "else if"

theorem judge_bare {line : Text} (bare : IsBare line) (leaving : Bool) (conditions : List Branch) :
    judge leaving conditions line = .failed (.bareElseif line) := by
  have words : Text.lower line ≠ "else" ∧ isEndif line = false := by
    rcases bare with spelled | spelled <;> simp only [isEndif, isWordLine, spelled] <;> decide
  have either : Text.lower line = "elseif" ∨ Text.lower line = "else if" := bare
  simp only [judge, words, either, Bool.false_eq_true, ↓reduceIte]

theorem track_bare {line : Text} (trimmed : Text.trimLeft line = line) (bare : IsBare line) (count : BlockCount) :
    count.track line = (count, .ok false) := by
  have words : isEndfor line = false ∧ isEndif line = false := by
    rcases bare with spelled | spelled <;> simp only [isEndfor, isEndif, isWordLine, spelled] <;> decide
  have starts : leads 'e' line := by
    rcases bare with spelled | spelled <;> (unfold leads; rw [spelled]; rfl)
  simp only [BlockCount.track, BlockCount.pass, words, not_isForeach_of_leads trimmed starts (by decide),
    not_opensIf_of_leads trimmed starts (by decide) (by decide), Bool.false_eq_true, ↓reduceIte]

def Role.Shifts : Role → List Branch → List Branch → Prop
  | .test .opening, before, after => ∃ branch, after = branch :: before
  | .test .continuing, before, after => before ≠ [] ∧ ∃ branch, after = branch :: before.drop 1
  | .otherwise, before, after => before ≠ [] ∧ ∃ branch, after = branch :: before.drop 1
  | .chainEnd, before, after => before ≠ [] ∧ after = before.drop 1
  | _, before, after => after = before

def Role.Admits (role : Role) (conditions : List Branch) : Verdict → Prop
  | .consumed after => role.Shifts conditions after
  | .runs => role.isOutside
  | .failed _ => True
  | .asks word _ => role = .test word ∧ (word = .continuing → conditions ≠ [])

theorem Role.shifts_of_outside {role : Role} (outside : role.isOutside) (conditions : List Branch) :
    role.Shifts conditions conditions := by
  cases role with
  | test word => cases outside
  | otherwise => cases outside
  | chainEnd => cases outside
  | header => rfl
  | loopEnd => rfl
  | action => rfl

theorem nonempty_of_any {conditions : List Branch} {P : Branch → Bool} (any : conditions.head?.any P) :
    conditions ≠ [] := by
  rintro rfl
  cases any

theorem testLine_admitted (leaving : Bool) (conditions : List Branch) (word : ConditionWord) (text : Text) :
    (Role.test word).Admits conditions (testLine leaving conditions word text) := by
  cases word with
  | opening =>
      simp only [testLine]
      split
      · exact ⟨_, rfl⟩
      split
      · exact ⟨_, rfl⟩
      · refine ⟨rfl, fun other => ?_⟩
        cases other
  | continuing =>
      simp only [testLine]
      split
      · rename_i skips
        cases conditions with
        | nil => cases skips
        | cons branch rest => exact ⟨List.cons_ne_nil _ _, branch, rfl⟩
      split
      · rename_i taken
        exact ⟨nonempty_of_any taken, _, rfl⟩
      split
      · rename_i pending
        split
        · exact ⟨nonempty_of_any pending, _, rfl⟩
        · exact ⟨rfl, fun _ => nonempty_of_any pending⟩
      · trivial

theorem judge_admitted {line : Text} {role : Role} (known : role? line = some role) (leaving : Bool)
    (conditions : List Branch) : role.Admits conditions (judge leaving conditions line) := by
  have outside (is : role.isOutside) : role.Admits conditions (judge leaving conditions line) := by
    rw [judge_outside known is]
    split
    · exact role.shifts_of_outside is conditions
    · exact is
  match role, known with
  | .header, known => exact outside rfl
  | .loopEnd, known => exact outside rfl
  | .action, known => exact outside rfl
  | .otherwise, known =>
      rw [judge_of_otherwise known]
      split
      · rename_i pending
        exact ⟨nonempty_of_any pending, _, rfl⟩
      split
      · rename_i taken
        exact ⟨nonempty_of_any taken, _, rfl⟩
      split
      · rename_i skips
        cases conditions with
        | nil => cases skips
        | cons branch rest => exact ⟨nofun, branch, rfl⟩
      · trivial
  | .chainEnd, known =>
      cases conditions with
      | nil =>
          obtain ⟨notElse, ends⟩ := describes_of_role known
          simp only [judge, notElse, ends, ↓reduceIte]
          trivial
      | cons branch rest =>
          rw [judge_of_chainEnd known]
          exact ⟨nofun, rfl⟩
  | .test word, known =>
      cases tested : conditionText word line with
      | ok text =>
          rw [judge_of_test known tested]
          exact testLine_admitted leaving conditions word text
      | error error =>
          obtain ⟨⟨notElse, notEndif, notBare⟩, tests⟩ := tests_of_role known
          simp only [judge, notElse, notEndif, notBare, tests, tested, ↓reduceIte, Bool.false_eq_true]
          trivial

theorem settle_shifts {word : ConditionWord} {conditions : List Branch} (full : word = .continuing → conditions ≠ [])
    (decided : Except ScriptError Bool) :
    (∀ taken, decided = .ok taken → (Role.test word).Shifts conditions (settle word decided conditions)) ∧
      (settle word decided conditions = conditions ∨
        (Role.test word).Shifts conditions (settle word decided conditions)) := by
  have entered (taken : Bool) : (Role.test word).Shifts conditions (enter word taken conditions) := by
    cases word with
    | opening => exact ⟨_, rfl⟩
    | continuing => exact ⟨full rfl, _, rfl⟩
  cases decided with
  | ok taken => exact ⟨fun _ _ => entered taken, .inr (entered taken)⟩
  | error error =>
      refine ⟨nofun, ?_⟩
      simp only [settle]
      split
      · exact .inl rfl
      · cases word with
        | opening => exact .inl rfl
        | continuing => exact .inr ⟨full rfl, _, rfl⟩

end Flow

namespace Interpreter

variable {session : Session σ}

/-- A line either moves the conditional stack as its role says, or is outside the chains and is to be run. A
condition that cannot be decided may still have moved the stack. -/
theorem passConditions_shifts (env : Env σ) {line : Text} {role : Flow.Role} (known : Flow.role? line = some role)
    (leaving : Bool) :
    Meets
      (fun passed after =>
        (passed = true ∧ ∃ conditions, role.Shifts session.frame.conditions conditions ∧
            after.frame = { session.frame with conditions }) ∨
          (passed = false ∧ role.isOutside ∧ after.frame = session.frame))
      (fun _ after => ∃ conditions,
        (conditions = session.frame.conditions ∨ role.Shifts session.frame.conditions conditions) ∧
          after.frame = { session.frame with conditions })
      (passConditions env leaving line) session := by
  have admitted := Flow.judge_admitted known leaving session.frame.conditions
  refine Meets.read ?_
  dsimp only
  cases judged : Flow.judge leaving session.frame.conditions line with
  | runs =>
      rw [judged] at admitted
      exact Meets.pure (.inr ⟨rfl, admitted, rfl⟩)
  | consumed after =>
      rw [judged] at admitted
      exact Meets.change_bind (Meets.pure (.inl ⟨rfl, after, admitted, rfl⟩))
  | failed error => exact Meets.throw ⟨_, .inl rfl, rfl⟩
  | asks word text =>
      rw [judged] at admitted
      obtain ⟨rfl, full⟩ := admitted
      have decides := Meets.sameFrame (fun reference =>
        decideCondition_respects (Framed.traceable reference).toEvaluable env word text) session
      refine Meets.caught_bind decides (fun taken after same => ?_) (fun error after same => ?_)
        fun exit after same _ => ⟨_, .inl rfl, same⟩
      · refine Meets.change_bind (Meets.pure (.inl ⟨rfl, _, (Flow.settle_shifts full (.ok taken)).1 taken rfl, ?_⟩))
        rw [same]
      · refine Meets.change_bind (Meets.throw ⟨_, (Flow.settle_shifts full (.error error)).2, ?_⟩)
        rw [same]

end Interpreter

def Stacked (base : List Branch) (depth : Nat) (conditions : List Branch) : Prop :=
  ∃ opened, opened.length = depth ∧ conditions = opened ++ base

namespace Stacked

variable {base before after : List Branch} {depth : Nat}

theorem suffix (stacked : Stacked base depth before) : base <:+ before := by
  obtain ⟨opened, _, rfl⟩ := stacked
  exact List.suffix_append opened base

theorem bottom (base : List Branch) : Stacked base 0 base := ⟨[], rfl, rfl⟩

theorem eq_base (stacked : Stacked base 0 before) : before = base := by
  obtain ⟨opened, none, rfl⟩ := stacked
  rw [List.length_eq_zero_iff.mp none, List.nil_append]

theorem push (stacked : Stacked base depth before) (branch : Branch) : Stacked base (depth + 1) (branch :: before) := by
  obtain ⟨opened, rfl, rfl⟩ := stacked
  exact ⟨branch :: opened, rfl, rfl⟩

theorem drop (stacked : Stacked base (depth + 1) before) : Stacked base depth (before.drop 1) := by
  obtain ⟨opened, long, rfl⟩ := stacked
  cases opened with
  | nil => cases long
  | cons branch rest => exact ⟨rest, by simpa using long, rfl⟩

theorem turn (stacked : Stacked base (depth + 1) before) (branch : Branch) :
    Stacked base (depth + 1) (branch :: before.drop 1) := stacked.drop.push branch

end Stacked

/-- The line plays a role, both as it is written and as it is run. -/
def Plays (reads : Text → Text) (line : Text) (role : Flow.Role) : Prop :=
  Flow.role? line = some role ∧ Flow.role? (reads line) = some role

instance (reads : Text → Text) (line : Text) (role : Flow.Role) : Decidable (Plays reads line role) :=
  inferInstanceAs (Decidable (_ ∧ _))

/-- Lines of a body that close a number of chains, and all that they open; `reads` gives the lines as they are run. -/
inductive Nested (reads : Text → Text) : Nat → List BodyLine → Prop
  | done : Nested reads 0 []
  | command (line : ScriptLine) {depth : Nat} {rest : List BodyLine} :
      Plays reads line.text .action → Interpreter.isSteady (reads line.text) → Nested reads depth rest →
      Nested reads depth (line.toBodyLine :: rest)
  | bare (line : ScriptLine) {depth : Nat} {rest : List BodyLine} :
      Flow.IsBare line.text → Flow.IsBare (reads line.text) → Nested reads depth rest →
      Nested reads depth (line.toBodyLine :: rest)
  | opens (line : ScriptLine) {depth : Nat} {rest : List BodyLine} :
      Plays reads line.text (.test .opening) → Nested reads (depth + 1) rest →
      Nested reads depth (line.toBodyLine :: rest)
  | elseIf (line : ScriptLine) {depth : Nat} {rest : List BodyLine} :
      Plays reads line.text (.test .continuing) → Nested reads (depth + 1) rest →
      Nested reads (depth + 1) (line.toBodyLine :: rest)
  | otherwise (line : ScriptLine) {depth : Nat} {rest : List BodyLine} :
      Plays reads line.text .otherwise → Nested reads (depth + 1) rest →
      Nested reads (depth + 1) (line.toBodyLine :: rest)
  | closes (line : ScriptLine) {depth : Nat} {rest : List BodyLine} :
      Plays reads line.text .chainEnd → Nested reads depth rest → Nested reads (depth + 1) (line.toBodyLine :: rest)
  | loop (header close : ScriptLine) {depth : Nat} {inner rest : List BodyLine} :
      Plays reads header.text .header → Nested reads 0 inner → Plays reads close.text .loopEnd →
        Nested reads depth rest →
      Nested reads depth (header.toBodyLine :: (inner ++ close.toBodyLine :: rest))

/-- Such lines are accepted when they are read: they bring the number of open loops back to what it was and never to
zero, and leave no chain open. -/
theorem Nested.tracks {reads : Text → Text} {depth : Nat} {lines : List BodyLine} (nested : Nested reads depth lines)
    {loops ifs : Int} (inside : 0 < loops) : Structured.Tracks ⟨loops, ifs + depth⟩ lines ⟨loops, ifs⟩ := by
  induction nested generalizing loops ifs with
  | done =>
      have same : ifs + ((0 : Nat) : Int) = ifs := by omega
      rw [same]
      exact .nil
  | command line plays _ _ ih => exact .line line plays.1 (by decide) (ih inside)
  | bare line written _ _ ih => exact .cons line (Flow.track_bare line.trimmedLeft written _) (ih inside)
  | opens line plays _ ih =>
      refine .line line plays.1 (by decide) ?_
      simp only [Flow.Role.count, Int.add_assoc]
      exact ih inside
  | elseIf line plays _ ih => exact .line line plays.1 (by decide) (ih inside)
  | otherwise line plays _ ih => exact .line line plays.1 (by decide) (ih inside)
  | @closes line depth rest plays _ ih =>
      refine .line line plays.1 (by decide) ?_
      have back : ifs + ((depth + 1 : Nat) : Int) - 1 = ifs + depth := by omega
      simp only [Flow.Role.count, back]
      exact ih inside
  | @loop header close depth inner rest opens _ ends _ innerTracks restTracks =>
      have deeper : 0 < loops + 1 := by omega
      have within := @innerTracks (loops + 1) (ifs + depth) deeper
      have same : ifs + depth + ((0 : Nat) : Int) = ifs + depth := by omega
      rw [same] at within
      refine .line header opens.1 (by decide) (within.append ?_)
      refine .cons close (Flow.track_inner_loopEnd ends.1 (show loops + 1 ≠ 1 by omega)) ?_
      have back : loops + 1 - 1 = loops := by omega
      simp only [Flow.Role.count, back]
      exact restTracks inside

end CommandScript
