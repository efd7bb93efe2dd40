import CommandScript.Proofs.Branches.Mirroring
import CommandScript.Proofs.Structured.Lines
import Mathlib.Data.List.Chain

/-! The order of branches, over whole runs. Whatever lines a session is given, a command runs only if every branch that
encloses it is taken, and of each chain at most one branch runs. -/

namespace CommandScript

variable {σ α : Type}

open Run Interpreter

namespace Sight

def executes (file place : Nat) (sight : Sight) : Bool := (sight.branchAt? file place).any Branch.isExecuting

def IsInnermost (file place : Nat) (sight : Sight) : Prop :=
  ∃ stack callers, sight.branches = stack :: callers ∧ callers.length = file ∧ stack.length = place + 1

def age (file place : Nat) (sight : Sight) : Nat := ((sight.branchAt? file place).map Branch.phase).getD 0

theorem executes_iff_age {file place : Nat} {sight : Sight} :
    sight.executes file place ↔ sight.age file place = 1 := by
  unfold executes age
  cases sight.branchAt? file place with
  | none => simp
  | some branch => exact branch.isExecuting_iff_phase

theorem branchAt?_innermost {sight : Sight} {upper : Branch} {rest : List Branch} {callers : List (List Branch)}
    (held : sight.branches = (upper :: rest) :: callers) : sight.branchAt? callers.length rest.length = some upper := by
  simp [branchAt?, held]

end Sight

/-- What the notes of a run say of its stacks; the earliest note comes first. -/
structure Orderly (trail : List Sight) : Prop where
  below : ∀ sight ∈ trail, ∀ stack ∈ sight.branches,
    stack.Pairwise fun upper lower => upper.isExecuting → lower.isExecuting
  used : ∀ sight ∈ trail, ∀ stack ∈ sight.branches, .elseFalse ∉ stack
  /-- A command is run only if every branch that encloses it is taken. -/
  commands : ∀ sight ∈ trail, sight.occasion = .command →
    ∀ stack ∈ sight.branches.head?, ∀ branch ∈ stack, branch.isExecuting
  moves : trail.IsChain fun earlier later => later.Succeeds earlier.branches
  /-- As long as an entry is there, it does not execute again once it has stopped. -/
  once (file place : Nat) : ∀ segment, segment <:+: trail → (∀ sight ∈ segment, (sight.branchAt? file place).isSome) →
    ∀ first second third, [first, second, third].Sublist segment →
      first.executes file place → second.executes file place = false → third.executes file place = false
  /-- As long as an entry is there, it does not execute in a further branch once it has executed in one. -/
  oneBranch (file place : Nat) : ∀ segment, segment <:+: trail →
    (∀ sight ∈ segment, (sight.branchAt? file place).isSome) →
    ∀ first second third, [first, second, third].Sublist segment → first.executes file place →
      second.occasion = .branch → second.IsInnermost file place → third.executes file place = false

section Segment

variable {file place : Nat} {segment : List Sight} {first second third : Sight}
  (moves : segment.IsChain fun earlier later => later.Succeeds earlier.branches)
  (there : ∀ sight ∈ segment, (sight.branchAt? file place).isSome)

include moves there

theorem ages_along : segment.Pairwise fun earlier later => earlier.age file place ≤ later.age file place := by
  have older {earlier later : Sight} (here : earlier ∈ segment) (still : later ∈ segment)
      (next : later.Succeeds earlier.branches) : earlier.age file place ≤ later.age file place := by
    obtain ⟨old, was⟩ := Option.isSome_iff_exists.mp (there earlier here)
    obtain ⟨new, is⟩ := Option.isSome_iff_exists.mp (there later still)
    simpa only [Sight.age, was, is, Option.map_some, Option.getD_some] using next.moves.ages was is
  have chain := moves.imp_of_mem_imp fun earlier later here still next => older here still next
  have : IsTrans Sight fun earlier later => earlier.age file place ≤ later.age file place := ⟨fun _ _ _ => Nat.le_trans⟩
  exact List.isChain_iff_pairwise.mp chain

theorem stays_over (order : [first, second, third].Sublist segment) (executes : first.executes file place)
    (stopped : second.executes file place = false) : third.executes file place = false := by
  have ages := (ages_along moves there).sublist order
  simp only [List.pairwise_cons, List.mem_cons, List.not_mem_nil, or_false, forall_eq_or_imp, forall_eq] at ages
  obtain ⟨⟨sooner, _⟩, later, _⟩ := ages
  rw [Bool.eq_false_iff, ne_eq, Sight.executes_iff_age] at stopped ⊢
  rw [Sight.executes_iff_age] at executes
  omega

/-- An entry that has executed does not after a further branch of its chain was started. -/
theorem over_in_further_branch (order : [first, second].Sublist segment) (executes : first.executes file place)
    (further : second.occasion = .branch) (innermost : second.IsInnermost file place) :
    second.executes file place = false := by
  rw [Bool.eq_false_iff]
  intro again
  obtain ⟨before, after, rfl, reached, rest⟩ := List.cons_sublist_iff.mp order
  obtain ⟨between, after, rfl⟩ := List.append_of_mem (List.singleton_sublist.mp rest)
  rw [← List.append_assoc] at moves there
  -- the note right before has the entry too, and there it executes as well
  obtain ⟨previous, last, whole⟩ : ∃ previous last, before ++ between = previous ++ [last] := by
    rcases List.eq_nil_or_concat (before ++ between) with none | ⟨previous, last, whole⟩
    · rw [(List.append_eq_nil_iff.mp none).1] at reached
      cases reached
    · exact ⟨previous, last, by simpa using whole⟩
  have among : first ∈ previous ++ [last] := whole ▸ List.mem_append_left between reached
  rw [whole] at moves there
  obtain ⟨sooner, _, later⟩ := List.pairwise_append.mp (ages_along moves there)
  have executed : last.executes file place := by
    have grown : last.age file place ≤ second.age file place := later last (by simp) second List.mem_cons_self
    have old : first.age file place ≤ last.age file place := by
      rcases List.mem_append.mp among with earlier | same
      · exact (List.pairwise_append.mp sooner).2.2 first earlier last List.mem_cons_self
      · rw [List.mem_singleton.mp same]
    rw [Sight.executes_iff_age] at executes again ⊢
    omega
  have next : second.Succeeds last.branches :=
    (List.isChain_append.mp moves).2.2 last (by simp) second (by simp)
  obtain ⟨_, _, callers, was, is, ⟨old, new, chains, rfl, rfl, ended⟩⟩ := next.turns further
  obtain ⟨stack, others, held, rfl, deep⟩ := innermost
  obtain ⟨rfl, rfl⟩ := List.cons.inj (is.symm.trans held)
  obtain rfl : chains.length = place := by simpa using deep
  rw [Sight.executes, Sight.branchAt?_innermost was] at executed
  rw [Sight.executes, Sight.branchAt?_innermost is] at again
  exact absurd again (by simp [ended executed])

end Segment

theorem Faithful.orderly {trail : List Sight} {branches : List (List Branch)} (faithful : Faithful trail branches) :
    Orderly trail.reverse := by
  have moves : trail.reverse.IsChain fun earlier later => later.Succeeds earlier.branches :=
    List.isChain_reverse.mpr faithful.chain
  have part {segment : List Sight} (within : segment <:+: trail.reverse) :
      segment.IsChain fun earlier later => later.Succeeds earlier.branches := List.IsChain.infix moves within
  have layered (sight : Sight) (member : sight ∈ trail.reverse) : sight.IsLayered :=
    faithful.layered sight (List.mem_reverse.mp member)
  refine ⟨fun sight member stack held => ?_, fun sight member stack held => ?_,
    fun sight member => (layered sight member).command, moves, fun file place segment within there => ?_,
    fun file place segment within there => ?_⟩
  · refine ((layered sight member).branches stack held).below.imp fun below executes => below ?_
    rintro rfl
    cases executes
  · exact ((layered sight member).branches stack held).used
  · intro first second third order executes stopped
    exact stays_over (part within) there order executes stopped
  · intro first second third order executes further innermost
    have sooner : [first, second].Sublist segment :=
      (by simp : [first, second].Sublist [first, second, third]).trans order
    exact stays_over (part within) there order executes
      (over_in_further_branch (part within) there sooner executes further innermost)

theorem Orderly.all_executing {trail : List Sight} (orderly : Orderly trail) {sight : Sight} (member : sight ∈ trail)
    {stack : List Branch} (held : stack ∈ sight.branches) :
    stack.all Branch.isExecuting = !stack.head?.any Branch.isSkipping := by
  cases stack with
  | nil => rfl
  | cons upper rest =>
      have below := (List.pairwise_cons.mp (orderly.below sight member _ held)).1
      rw [List.all_cons, List.head?_cons, Option.any_some, Branch.isExecuting_eq]
      cases executes : upper.isSkipping with
      | true => rfl
      | false =>
          rw [Bool.not_false, Bool.true_and, List.all_eq_true]
          exact fun lower inside => below lower inside (by rw [Branch.isExecuting_eq, executes]; rfl)

/-- Which statements run. Where the stack is one of an orderly run, a statement that is no part of a chain is done if
every branch that encloses it is taken, and otherwise it leaves the session as it is. -/
theorem Orderly.statement_eq {trail : List Sight} (orderly : Orderly trail) {sight : Sight} (member : sight ∈ trail)
    (env : Env σ) (exec : Text → Run σ Unit) {session : Session σ} (held : session.frame.conditions ∈ sight.branches)
    (notCollecting : session.frame.loops.head?.any Loop.isCollecting = false)
    (notLeaving : session.frame.loops.head?.any (·.mode = .leaving) = false) {text line : Text}
    (cleaned : Text.trim (Text.stripComment text) = line) (filled : line ≠ [])
    (balanced : Text.checkBalance line = .ok ())
    {role : Flow.Role} (known : Flow.role? (rewrite session.frame.aliasTables line) = some role)
    (outside : role.isOutside) :
    statement env exec text session =
      if session.frame.conditions.all Branch.isExecuting then
        runStatement env exec (rewrite session.frame.aliasTables line) session
      else .ok () session := by
  have judged := @Flow.judge_outside _ role false session.frame.conditions known outside
  have nonempty : line.isEmpty = false := List.isEmpty_eq_false_iff.mpr filled
  have passes : passConditions env false (rewrite session.frame.aliasTables line) session =
      .ok (session.frame.conditions.head?.any Branch.isSkipping) session := by
    simp only [passConditions, bind, EStateM.bind, EStateM.get_apply, judged]
    cases session.frame.conditions.head?.any Branch.isSkipping <;> rfl
  rw [orderly.all_executing member held]
  simp only [statement, cleaned, nonempty, balanced, Bool.false_eq_true, if_false, bind, EStateM.bind,
    EStateM.get_apply, Run.ofMalformed, Run.ofExcept, pure, EStateM.pure, notCollecting, notLeaving]
  rw [← rewrite, passes]
  cases session.frame.conditions.head?.any Branch.isSkipping <;> rfl

namespace Recorded

def trail (recorded : Recorded σ α) (session : Session σ) : List Sight :=
  match recorded (session, [⟨.step, session.branches⟩]) with
  | .ok _ (_, notes) => notes.reverse
  | .error _ (_, notes) => notes.reverse

def result (recorded : Recorded σ α) (session : Session σ) : EStateM.Result Exit (Session σ) α :=
  match recorded (session, [⟨.step, session.branches⟩]) with
  | .ok value (after, _) => .ok value after
  | .error exit (after, _) => .error exit after

end Recorded

theorem MirrorsAt.orderly {recorded : Recorded σ α} {program : Run σ α} {session : Session σ}
    (mirrors : MirrorsAt recorded program session) (layered : ∀ stack ∈ session.branches, Flow.Layered stack) :
    recorded.result session = program session ∧ Orderly (recorded.trail session) ∧
      (recorded.trail session).head?.map Sight.branches = some session.branches ∧
      (recorded.trail session).getLast?.map Sight.branches = some (program.leaves session).branches := by
  have starts : Faithful [⟨.step, session.branches⟩] session.branches :=
    ⟨rfl, List.isChain_singleton _, List.forall_mem_singleton.mpr ⟨layered, nofun⟩⟩
  have mirrored := mirrors starts
  unfold Recorded.result Recorded.trail Run.leaves
  generalize recorded _ = result at mirrored ⊢
  generalize program session = result' at mirrored ⊢
  have firstNote {later : List Sight} (grown : [⟨.step, session.branches⟩] <:+ later) :
      later.reverse.head?.map Sight.branches = some session.branches := by
    obtain ⟨rest, rfl⟩ := grown
    simp
  cases mirrored with
  | ok faithful grown => exact ⟨rfl, faithful.orderly, firstNote grown, by simpa using faithful.latest⟩
  | error faithful grown => exact ⟨rfl, faithful.orderly, firstNote grown, by simpa using faithful.latest⟩

/-- Whatever a session is asked to run, its branches are in order all the time. The run is recorded: its notes span all
that happens from the start to the end, and recording changes nothing. -/
theorem Recorded.answers_orderly (env : Env σ) (depth : Nat) (requests : List Request) (options : Options) (host : σ)
    (files : FileTree) :
    let recorded := answers env (execLine env depth) requests
    let start := Session.start options host files
    recorded.result start = Interpreter.answers env depth requests start ∧ Orderly (recorded.trail start) ∧
      (recorded.trail start).head?.map Sight.branches = some start.branches ∧
      (recorded.trail start).getLast?.map Sight.branches =
        some ((Interpreter.answers env depth requests).leaves start).branches := by
  intro recorded start
  have mirrors : MirrorsAt recorded (Interpreter.answers env depth requests) start := by
    rw [← answersBy_execLine]
    exact answers_mirrors env (execLine_mirrors env depth) requests start
  exact mirrors.orderly (List.forall_mem_singleton.mpr .nil)

example :
    ((Recorded.answers {} (Recorded.execLine {} 1)
      [.line "if(true)", .line "unset x", .line "else", .line "unset y", .line "endif", .line "unset z"]).trail
        (Session.start {} ())).filter (·.occasion ≠ .step) =
      [⟨.command, [[.ifTrue]]⟩, ⟨.branch, [[.skip]]⟩, ⟨.command, [[]]⟩] := by decide +kernel

end CommandScript
