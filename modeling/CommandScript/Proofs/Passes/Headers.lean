import CommandScript.Proofs.Passes.Replaying

/-! Loops over ranges and lists from their headers to their ends. The header takes down what is run over and binds the
first element; the lines of the body are only read; and the end has one pass for each element. -/

namespace CommandScript

variable {σ : Type}

open Run Interpreter

/-- What a header takes down: the integers that the bounds of a range have at that time, or the fields of the text that
the variable of a list has then. No element has been bound yet. -/
inductive LoopHeader.Takes (env : Env σ) : LoopHeader → Session σ → LoopSource → Session σ → Prop
  | range {name first last : Text} {start stop : Int} {before middle after : Session σ}
      (starts : Flow.rangeBound env .start first before = .ok start middle)
      (stops : Flow.rangeBound env .stop last middle = .ok stop after) :
      Takes env (.range name first last) before (.range start stop start) after
  | stored {name saved : Text} {before : Session σ} (holds : before.store.get? name = .ok (some saved)) :
      Takes env (.list name none) before
        (.list (Flow.listFields saved) (min 1 (Flow.listFields saved).length) saved) before
  | literal {name text saved : Text} {before : Session σ}
      (holds : (before.put name text).store.get? name = .ok (some saved)) :
      Takes env (.list name (some text)) before
        (.list (Flow.listFields saved) (min 1 (Flow.listFields saved).length) saved) (before.put name text)

theorem LoopHeader.Takes.fresh {env : Env σ} {header : LoopHeader} {before after : Session σ} {source : LoopSource}
    (takes : header.Takes env before source after) : source.Fresh := by
  cases takes with
  | range _ _ => exact .range _ _
  | stored _ | literal _ => exact .list _ _

/-- The variables after a header has bound the first element, if there is one. -/
def LoopSource.bound (name : Text) (store : Store) (source : LoopSource) : Store :=
  if 0 < source.count then store.set name (source.element 0) else store

namespace Flow

variable {env : Env σ}

/-- What is known of a loop whose header has been read. -/
structure Opens (env : Env σ) (header : LoopHeader) (before : Session σ) (name : Text) (loop : Loop)
    (after : Session σ) :
    Prop where
  takes : ∃ taken : Session σ, header.Takes env before loop.source taken ∧ after.frame.loops = taken.frame.loops ∧
    after.store = loop.source.bound name taken.store
  name : loop.name = name
  mode : loop.mode = Flow.readingIf (0 < loop.source.count)

theorem Opens.filled {header : LoopHeader} {before taken : Session σ} {name : Text} {source : LoopSource}
    (takes : header.Takes env before source taken) (filled : 0 < source.count) :
    Opens env header before name { name, source, mode := .reading } (taken.put name (source.element 0)) where
  takes := ⟨taken, takes, rfl, by rw [LoopSource.bound, if_pos filled]; rfl⟩
  name := rfl
  mode := by rw [readingIf, if_pos (decide_eq_true filled)]

theorem Opens.empty {header : LoopHeader} {before taken : Session σ} {name : Text} {source : LoopSource}
    (takes : header.Takes env before source taken) (empty : source.count = 0) :
    Opens env header before name { name, source, mode := .dropping } taken where
  takes := ⟨taken, takes, rfl, by rw [LoopSource.bound, empty, if_neg (Nat.lt_irrefl 0)]⟩
  name := rfl
  mode := by rw [readingIf, if_neg (by simp [empty])]

theorem bindFields_opens {header : LoopHeader} {name : Text} {before session : Session σ}
    (takes : ∀ saved, session.store.get? name = .ok (some saved) →
      header.Takes env before (.list (listFields saved) (min 1 (listFields saved).length) saved) session) :
    Meets (Opens env header before name) (fun _ _ => True) (bindFields name) session := by
  refine Meets.bind Meets.reached fun found after read => ?_
  unfold Run.readVariable at read
  simp only [bind, EStateM.bind, EStateM.get_apply] at read
  cases stored : session.store.get? name with
  | error failure => cases failure <;> simp [stored, Run.ofFailure, Run.ofExcept, EStateM.throw_apply] at read
  | ok value =>
      rw [stored] at read
      cases read
      cases found with
      | none => exact Meets.throw trivial
      | some saved =>
          have takes := takes saved stored
          dsimp only
          cases fields : listFields saved with
          | nil =>
              rw [fields] at takes
              exact Meets.pure (.empty takes rfl)
          | cons first rest =>
              rw [fields] at takes
              exact Meets.change_bind (Meets.pure (.filled takes (Nat.succ_pos rest.length)))

theorem bindFirst_opens {header : LoopHeader} {name : Text} (binds : header.binds? = some name) (session : Session σ) :
    Meets (Opens env header session name) (fun _ _ => True) (bindFirst env header) session := by
  cases header with
  | range _ first last =>
      cases binds
      refine Meets.bind Meets.reached fun start middle starts => Meets.bind Meets.reached fun stop after stops => ?_
      have takes : LoopHeader.Takes env (.range name first last) session (.range start stop start) after :=
        .range starts stops
      dsimp only
      by_cases filled : start ≤ stop
      · rw [if_pos filled, decide_eq_true filled]
        refine Meets.change_bind (Meets.pure ?_)
        have element : LoopSource.element 0 (.range start stop start) = Text.ofInt start := by
          rw [LoopSource.element, Int.natCast_zero, Int.add_zero]
        exact element ▸ .filled takes (show 0 < (stop - start + 1).toNat by omega)
      · rw [if_neg filled, decide_eq_false filled]
        exact Meets.pure (.empty takes (show (stop - start + 1).toNat = 0 by omega))
  | list _ literal =>
      cases binds
      cases literal with
      | none => exact bindFields_opens fun saved holds => .stored holds
      | some text =>
          rw [bindFirst_literal]
          exact Meets.change_bind (bindFields_opens fun saved holds => .literal holds)
  | external _ _ _ => cases binds

end Flow

namespace Interpreter

variable {env : Env σ}

theorem startLoop_opens {line name : Text} {header : LoopHeader} (parsed : LoopHeader.parse line = .ok header)
    (binds : header.binds? = some name) (session : Session σ) :
    Meets
      (fun _ opened => ∃ loop before, opened.frame.loops = loop :: before.frame.loops ∧ opened.store = before.store ∧
        Flow.Opens env header { session with frame := { session.frame with blocks := ⟨1, 0⟩ } } name loop before)
      (fun _ _ => True) (startLoop env line) session := by
  have enrolls (loop : Loop) (before : Session σ)
      (known : Flow.Opens env header { session with frame := { session.frame with blocks := ⟨1, 0⟩ } } name loop
        before) :
      Meets
        (fun loop reached => ∃ before, reached.frame = before.frame ∧ reached.store = before.store ∧
          Flow.Opens env header { session with frame := { session.frame with blocks := ⟨1, 0⟩ } } name loop before)
        (fun _ _ => True) (Flow.enroll loop) before :=
    Meets.read (Meets.change_bind (Meets.pure ⟨before, rfl, rfl, known.takes, known.name, known.mode⟩))
  unfold startLoop
  rw [parsed]
  change Meets _ _ (do
    Run.modifyFrame ({ · with blocks := ⟨1, 0⟩ })
    let loop ← Flow.openLoop env header
    Run.modifyFrame fun frame => { frame with loops := loop :: frame.loops } : Run σ Unit) session
  refine Meets.change_bind (Meets.bind (Meets.bind (Flow.bindFirst_opens binds _) enrolls) ?_)
  rintro loop reached ⟨before, frame, store, known⟩
  exact Meets.change ⟨loop, before, by rw [frame], store, known⟩

/-- The lines of a body have been read since a loop was opened. Between them only what is neither a variable nor a loop
may have changed. -/
inductive Reads (env : Env σ) (exec : Text → Run σ Unit) (opened : Session σ) : Session σ → Prop
  | opened : Reads env exec opened opened
  | line {session : Session σ} (line : Text) :
      Reads env exec opened session → (session.frame.blocks.track line).2 ≠ .ok true →
        Reads env exec opened ((collect env exec line).leaves session)
  | aside {session after : Session σ} :
      Reads env exec opened session → after.store = session.store → after.frame.loops = session.frame.loops →
        Reads env exec opened after

theorem Reads.keeps {exec : Text → Run σ Unit} {opened ready : Session σ} (reads : Reads env exec opened ready)
    {loop : Loop}
    {outer : List Loop} (stack : opened.frame.loops = loop :: outer) :
    ready.store = opened.store ∧ ∃ lines, ready.frame.loops = { loop with lines } :: outer := by
  induction reads with
  | opened => exact ⟨rfl, loop.lines, stack⟩
  | @line session line _ goesOn ih =>
      obtain ⟨store, lines, loops⟩ := ih
      rw [Run.leaves, collect_counted]
      cases result : (session.frame.blocks.track line).2 with
      | error error => exact ⟨store, lines, loops⟩
      | ok ends =>
          cases ends with
          | true => exact absurd result goesOn
          | false =>
              refine ⟨store, lines ++ [⟨line, session.frame.line⟩], ?_⟩
              simp only [Run.modifyFrame, EStateM.modify_apply, Frame.modifyLoop, loops, List.modifyHead_cons]
  | aside _ sameStore sameLoops ih =>
      obtain ⟨store, lines, loops⟩ := ih
      exact ⟨sameStore.trans store, lines, sameLoops.trans loops⟩

theorem Reads.opens {exec : Text → Run σ Unit} {line name : Text} {header : LoopHeader}
    {session opened ready : Session σ}
    (parsed : LoopHeader.parse line = .ok header) (binds : header.binds? = some name)
    (opens : startLoop env line session = .ok () opened) (reads : Reads env exec opened ready) :
    ∃ (taken : Session σ) (loop : Loop) (outer : List Loop),
      header.Takes env { session with frame := { session.frame with blocks := ⟨1, 0⟩ } } loop.source taken ∧
      ready.frame.loops = loop :: outer ∧ loop.name = name ∧ loop.mode = Flow.readingIf (0 < loop.source.count) ∧
      ready.store = loop.source.bound name taken.store := by
  obtain ⟨first, before, stack, store, known⟩ := (startLoop_opens parsed binds session).ended opens
  obtain ⟨taken, takes, loops, bound⟩ := known.takes
  obtain ⟨same, lines, reading⟩ := reads.keeps stack
  exact ⟨taken, { first with lines }, before.frame.loops, takes, reading, known.name, known.mode,
    same.trans (store.trans bound)⟩

def passesAfter (env : Env σ) (depth : Nat) (last : Text) (ready : Session σ) (loop : Loop) (outer : List Loop) :
    LoopPasses σ :=
  Flow.passesOf env (runLine env (execLine env depth))
    { ready with frame := { ready.frame with blocks := (ready.frame.blocks.track last).1 } } loop outer

/-- The last line of a body runs all passes and closes the loop, if no pass fails or leaves it. -/
theorem collect_passes (env : Env σ) (depth : Nat) {last : Text} {ready : Session σ} {loop : Loop} {outer : List Loop}
    (ends : (ready.frame.blocks.track last).2 = .ok true) (stack : ready.frame.loops = loop :: outer)
    (fresh : loop.source.Fresh) (mode : loop.mode = Flow.readingIf (0 < loop.source.count))
    (completes : ∀ index < loop.source.count, (passesAfter env depth last ready loop outer).Completes index) :
    ∃ after, collect env (execLine env depth) last ready = .ok () after ∧ after.frame.line = ready.frame.line ∧
      after.store = loop.source.restored loop.name (passesAfter env depth last ready loop outer).last.store ∧
      after.host = (passesAfter env depth last ready loop outer).last.host := by
  rw [collect_counted, ends]
  exact Flow.endLoop_passes stack fresh mode (passesOf_undisturbed env depth _ _ _) completes

/-- A loop over a range or a list has one pass for each element that its header has taken down, whatever its body does,
as long as no pass fails or leaves it. Each pass starts with its element and its number, which are written after the
pass before it with no line of the body in between; and after the last pass the line number is that of the end of the
body, and a list variable has its text again. -/
theorem foreach_passes (env : Env σ) (depth : Nat) {line name last : Text} {header : LoopHeader}
    {session opened ready : Session σ} (parsed : LoopHeader.parse line = .ok header) (binds : header.binds? = some name)
    (opens : startLoop env line session = .ok () opened) (read : Reads env (execLine env depth) opened ready)
    (ends : (ready.frame.blocks.track last).2 = .ok true) :
    ∃ (taken : Session σ) (loop : Loop) (outer : List Loop),
      header.Takes env { session with frame := { session.frame with blocks := ⟨1, 0⟩ } } loop.source taken ∧
      ready.frame.loops = loop :: outer ∧ loop.name = name ∧ ready.store = loop.source.bound name taken.store ∧
      let passes := passesAfter env depth last ready loop outer
      passes.start.store = ready.store ∧
        ((∀ index < loop.source.count, passes.Completes index) →
          ∃ after, collect env (execLine env depth) last ready = .ok () after ∧ after.frame.line = ready.frame.line ∧
            after.store = loop.source.restored name passes.last.store ∧ after.host = passes.last.host) := by
  obtain ⟨taken, loop, outer, takes, stack, same, mode, bound⟩ := read.opens parsed binds opens
  refine ⟨taken, loop, outer, takes, stack, same, bound, rfl, fun completes => ?_⟩
  rw [← same]
  exact collect_passes env depth ends stack takes.fresh mode completes

/-- A body removes the loop variable, which has its next value in the next pass all the same. -/
theorem unsetting_passes :
    let env : Env Unit := {}
    let opened := (startLoop env "foreach(2,3,i)").leaves (Session.start {} ())
    let ready := (collect env (execLine env 2) "unset i").leaves opened
    ∃ after, collect env (execLine env 2) "endfor" ready = .ok () after ∧ after.frame.line = ready.frame.line ∧
      after.store.lookup "i" = none ∧ after.store.lookup "for_index" = some ("2" : Text) := by
  intro env opened ready
  have parsed : LoopHeader.parse "foreach(2,3,i)" = .ok (.range "i" "2" "3") := by decide +kernel
  have opens : startLoop env "foreach(2,3,i)" (Session.start {} ()) = .ok () opened := Run.ends_ok (by decide +kernel)
  have read : Reads env (execLine env 2) opened ready := .line "unset i" .opened (by decide +kernel)
  have ends : (ready.frame.blocks.track "endfor").2 = .ok true := by decide +kernel
  obtain ⟨_, loop, outer, _, stack, _, _, _, passes⟩ := foreach_passes env 2 parsed rfl opens read ends
  have known : ready.frame.loops =
      [{ name := "i", source := .range 2 3 2, mode := .reading, lines := [⟨"unset i", 0⟩] }] := by decide +kernel
  obtain ⟨rfl, rfl⟩ := List.cons.inj (stack.symm.trans known)
  obtain ⟨after, ended, line, store, -⟩ := passes fun index (inside : index < 2) =>
    match index, inside with
    | 0, _ => ⟨by decide +kernel, Run.ends_ok (by decide +kernel), by decide +kernel⟩
    | 1, _ => ⟨by decide +kernel, Run.ends_ok (by decide +kernel), by decide +kernel⟩
  refine ⟨after, ended, line, ?_⟩
  rw [store]
  decide +kernel

end Interpreter

end CommandScript
