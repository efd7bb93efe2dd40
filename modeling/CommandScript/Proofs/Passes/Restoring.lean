import CommandScript.Proofs.Passes.Arrays
import CommandScript.Proofs.Scoping.Exports

/-! A loop over a list gives its text back. Its variable has the text that it had before the loop, or that the
header gives, whichever way the loop ends, as long as it is read where it is written. -/

namespace CommandScript

variable {σ : Type}

open Run

namespace Loop

/-- The loop runs over a list, and has saved a text for its variable. -/
structure Saves (loop : Loop) (name text : Text) : Prop where
  name : loop.name = name
  source : ∃ fields position, loop.source = .list fields position text

theorem Stays.saves {before after : Loop} {name text : Text} (stays : before.Stays after)
    (saves : before.Saves name text) :
    after.Saves name text := by
  obtain ⟨same, fields, position, source⟩ := saves
  exact ⟨stays.name.trans same, fields, position, stays.source.trans source⟩

end Loop

namespace LoopPasses

variable {passes : LoopPasses σ} {session : Session σ} {name text : Text}

/-- The loop is in its place, its body has been read, and it has saved a text. -/
def Saving (passes : LoopPasses σ) (name text : Text) (session : Session σ) : Prop :=
  ∃ now, session.frame.loopAt? passes.position = some now ∧ now.isCollecting = false ∧ now.Saves name text

theorem Saving.body (undisturbed : passes.Undisturbed) (saving : passes.Saving name text session) :
    passes.Saving name text (passes.body.leaves session) := by
  obtain ⟨now, found, read, saves⟩ := saving
  have grounded : session.Grounded (passes.position + 1) := by
    intro top same
    obtain rfl : top = passes.position := by omega
    exact ⟨now, found, read⟩
  obtain ⟨later, there, stays⟩ := undisturbed session grounded passes.position (Nat.lt_succ_self _) now found
  refine ⟨later, there, Bool.eq_false_iff.mpr fun reading => ?_, stays.saves saves⟩
  rw [stays.reads reading] at read
  cases read

theorem Saving.advance (saving : passes.Saving name text session) :
    passes.Saving name text ((Flow.advance passes.env passes.position).leaves session) := by
  obtain ⟨now, found, read, saves⟩ := saving
  obtain ⟨same, fields, position, source⟩ := saves
  unfold Flow.advance
  rw [Run.leaves_bind]
  simp only [EStateM.get_apply, found, source]
  cases fields[position]? with
  | none => exact ⟨now, found, read, same, fields, position, source⟩
  | some field =>
      refine ⟨{ now with source := .list fields (position + 1) text }, ?_, read, same, fields, position + 1, rfl⟩
      simp only [Frame.loopAt?] at found
      simp [Frame.loopAt?, Frame.modifyLoopAt, Run.leaves, bind, EStateM.bind, Run.put, Run.modifyFrame,
        EStateM.modify_apply,
        pure, EStateM.pure, Session.put, found]

theorem Saving.replay (undisturbed : passes.Undisturbed) (saving : passes.Saving name text session) (left pass : Nat) :
    passes.Saving name text
      ((Flow.replay passes.env passes.runs passes.position passes.conditions passes.loop.lines left
      pass).leaves session) := by
  induction left generalizing session pass with
  | zero => exact saving
  | succ left ih =>
      have numbered : passes.Saving name text (session.put "for_index" (Text.ofNat pass)) := saving
      have after := numbered.body undisturbed
      rw [Flow.replay, Run.leaves_bind]
      simp only [Run.put, EStateM.modify_apply]
      rw [Run.leaves_bind]
      rw [show Flow.replayLines passes.env passes.runs passes.conditions passes.loop.lines = passes.body from rfl]
      cases ran : passes.body (session.put "for_index" (Text.ofNat pass)) with
      | error exit reached => exact Run.leaves_error ran ▸ after
      | ok _ reached =>
          rw [Run.leaves_ok ran] at after
          dsimp only
          rw [Run.leaves_bind]
          simp only [EStateM.get_apply]
          split
          · exact after
          · have further := after.advance
            rw [Run.leaves_bind]
            cases moved : Flow.advance passes.env passes.position reached with
            | error exit last => exact Run.leaves_error moved ▸ further
            | ok answer last =>
                rw [Run.leaves_ok moved] at further
                dsimp only
                split
                · exact ih further (pass + 1)
                · exact further

end LoopPasses

theorem Run.leaves_deeper {α : Type} (calls : Nat) (program : Run σ α) (session : Session σ) :
    (Run.deeper calls program).leaves session =
      if Run.callLimit < session.depth + calls then session
      else { program.leaves { session with depth := session.depth + calls } with depth := session.depth } := by
  unfold Run.leaves
  rw [Run.deeper_eq]
  by_cases crowded : Run.callLimit < session.depth + calls
  · rw [if_pos crowded, if_pos crowded]
  · rw [if_neg crowded, if_neg crowded]
    cases program { session with depth := session.depth + calls } <;> rfl

namespace Flow

variable {env : Env σ} {session : Session σ} {name text : Text}

theorem finishLoop_puts {position : Nat} {now : Loop} (found : session.frame.loopAt? position = some now)
    (saves : now.Saves name text) (resume : Nat) :
    ∃ store : Store, ((finishLoop env position resume).leaves session).store = store.set name text := by
  obtain ⟨same, fields, next, source⟩ := saves
  obtain ⟨after, finished, -, store, -⟩ :=
    @finishLoop_restores σ env session position now found (by simp [source]) resume
  refine ⟨session.store, ?_⟩
  rw [Run.leaves_ok finished, store, source, same]
  rfl

/-- The end of a body puts back what its loop has saved, in whatever way the passes end. -/
theorem endLoop_puts {runs : Text → Run σ Unit} {loop : Loop} {outer : List Loop}
    (stack : session.frame.loops = loop :: outer) (saves : loop.Saves name text)
    (undisturbed : (passesOf env runs session loop outer).Undisturbed) :
    ∃ store : Store, ((endLoop env runs).leaves session).store = store.set name text := by
  have stands : ∃ now, ((runPasses env runs session.frame loop outer).leaves session).frame.loopAt? outer.length =
    some now ∧
      now.Saves name text := by
    unfold runPasses
    split
    · let passes := passesOf env runs session loop outer
      have starts : passes.Saving name text passes.start := by
        refine ⟨{ loop with mode := .replaying }, ?_, rfl, saves.name, saves.source⟩
        simp [passes, passesOf, Frame.loopAt?, Frame.modifyLoop, stack]
      have there (reached : Session σ) (saving : passes.Saving name text reached) :
          ∃ now, reached.frame.loopAt? outer.length = some now ∧ now.Saves name text := by
        obtain ⟨now, found, -, saves⟩ := saving
        exact ⟨now, found, saves⟩
      rw [Run.leaves_bind]
      simp only [Run.modifyFrame, EStateM.modify_apply]
      rw [Run.leaves_deeper]
      split
      · exact there _ starts
      · exact there _ (starts.replay undisturbed (budget env loop) 1)
    · exact ⟨loop, Frame.loopAt?_innermost stack, saves⟩
  obtain ⟨now, found, saves⟩ := stands
  rw [endLoop_leaves env runs stack]
  exact finishLoop_puts found saves _

theorem abandonAll_puts {loop : Loop} {outer : List Loop} (env : Env σ) (stack : session.frame.loops = loop :: outer)
    (saves : loop.Saves name text) :
    ∃ closed : Session σ, closed.frame.loops = outer ∧ closed.store = session.store.set name text ∧
      abandonAll env session = abandonLoops env outer.length closed := by
  obtain ⟨rfl, fields, position, source⟩ := saves
  let popped : Session σ := { session with frame := { session.frame with loops := outer } }
  refine ⟨(popped.note loop (.released loop.sourceKey?)).put loop.name text, rfl, rfl, ?_⟩
  simp only [abandonAll, bind, EStateM.bind, EStateM.get_apply, stack, List.length_cons, abandonLoops, Run.modifyFrame,
    EStateM.modify_apply, Run.onError, Run.attempt, closeLoop, giveBack, source, Run.put, pure, EStateM.pure]
  rfl

end Flow

namespace Interpreter

variable {env : Env σ} {session : Session σ} {line name text : Text}

/-- A loop over a list that is opened saves the text that its variable has had, or that the header gives. -/
theorem startLoop_saves (env : Env σ) {literal : Option Text} (plain : PlainName name)
    (parsed : LoopHeader.parse line = .ok (.list name literal)) (single : session.store.Single name)
    (had : literal.or (session.store.lookup name) = some text) :
    ∃ opened loop, startLoop env line session = .ok () opened ∧ opened.frame.loops = loop :: session.frame.loops ∧
      loop.Saves name text ∧ opened.store.Single name := by
  have holds : (literal.elim session (session.put name)).store.get? name = .ok (some text) := by
    cases literal with
    | none => exact (plain.get? session.store).trans (congrArg _ had)
    | some given =>
        cases had
        exact (plain.get? _).trans (congrArg _ (single.lookup_set text))
  have bound : ∃ loop after, Flow.bindFirst env (.list name literal)
      { session with frame := { session.frame with blocks := ⟨1, 0⟩ } } = .ok loop after := by
    cases literal with
    | none => exact Flow.bindFields_stored holds
    | some given => exact Flow.bindFields_stored holds
  obtain ⟨opened, opens⟩ := startLoop_bound parsed bound
  obtain ⟨loop, before, stack, store, known⟩ := (startLoop_opens parsed rfl session).ended opens
  obtain ⟨taken, takes, loops, -⟩ := known.takes
  obtain ⟨source, same⟩ := takes.listed (show _ = Except.ok (some text) by cases literal <;> exact holds)
  refine ⟨opened, loop, opens, ?_, ⟨known.name, _, _, source⟩, ?_⟩
  · rw [stack, loops, same]
    cases literal <;> rfl
  · have kept := @leaves_single σ Unit name (startLoop env line) session
      (fun _ _ => (Unshared.allows env name _ _).startsLoop fun _ _ _ _ => trivial) single
    exact Run.leaves_ok opens ▸ kept

/-- A loop over a list gives its variable back the text that it had, or that the header gives, if it is opened
while no file is about to run and its name is not both local and global. While its body is read, nothing changes
but the lines of the loop. Wherever that has led to, or any run that leaves the loop and the name as they were,
the text is read once the loop is closed: by the end of the body, in whatever way the passes end, if none of
them exports the name; and by the end of the script, which closes the loop first and the loops around it next. A
script file that runs in between and does not export the name leaves it as it was. -/
theorem listLoop_restores (env : Env σ) (depth : Nat) {literal : Option Text} (plain : PlainName name)
    (parsed : LoopHeader.parse line = .ok (.list name literal)) (single : session.store.Single name)
    (had : literal.or (session.store.lookup name) = some text) :
    ∃ opened loop, startLoop env line session = .ok () opened ∧ opened.frame.loops = loop :: session.frame.loops ∧
      (∀ ready : Session σ, Reads env (execLine env depth) opened ready →
        ready.store.Single name ∧ ∃ lines, ready.frame.loops = { loop with lines } :: session.frame.loops) ∧
      ∀ (ready : Session σ) lines outer, ready.frame.loops = { loop with lines } :: outer → ready.store.Single name →
        (∀ last, (ready.frame.blocks.track last).2 = .ok true →
          collect env (withoutExport env name depth) last ready = collect env (execLine env depth) last ready →
            ((collect env (execLine env depth) last).leaves ready).store.get? name = .ok (some text)) ∧
          (∃ closed : Session σ, closed.frame.loops = outer ∧ closed.store.get? name = .ok (some text) ∧
            Flow.abandonAll env ready = Flow.abandonLoops env outer.length closed) ∧
          ∀ target, parseFile env (withoutExport env name depth) target ready =
              parseFile env (execLine env depth) target ready →
            ((parseFile env (execLine env depth) target).leaves ready).store.Single name := by
  obtain ⟨opened, loop, opens, stack, saves, kept⟩ := startLoop_saves env plain parsed single had
  refine ⟨opened, loop, opens, stack, fun ready reads => ?_, fun ready lines outer loops here => ⟨?_, ?_, ?_⟩⟩
  · obtain ⟨same, reading⟩ := reads.keeps stack
    exact ⟨same ▸ kept, reading⟩
  · intro last ends spared
    have still := @collect_single σ env name ready depth last here
    rw [Run.leaves, spared] at still
    change ((collect env (execLine env depth) last).leaves ready).store.Single name at still
    -- what is read is the last that was written, and that was the text of the loop
    have closed : ∃ store : Store, ((collect env (execLine env depth) last).leaves ready).store =
        store.set name text := by
      rw [Run.leaves, collect_counted, ends]
      exact Flow.endLoop_puts loops ⟨saves.name, saves.source⟩ (passesOf_undisturbed env depth _ _ _)
    obtain ⟨store, put⟩ := closed
    rw [plain.get?, put]
    exact congrArg _ ((put ▸ still.toSees).of_set.lookup_set text)
  · obtain ⟨closed, rest, store, goesOn⟩ := Flow.abandonAll_puts env loops ⟨saves.name, saves.source⟩
    refine ⟨closed, rest, ?_, goesOn⟩
    rw [plain.get?, store]
    exact congrArg _ (here.lookup_set text)
  · intro target spared
    have still := @parseFile_single σ env name ready depth target here
    rwa [Run.leaves, spared] at still

/-- The body takes the variable away, runs a loop over the same name and a file that sets it, and leaves the loop. -/
theorem nestedLists_restore :
    let env : Env Unit := {}
    let files : FileTree := { files := [(["f.txt"], "a = 3\n".toUTF8.toList)] }
    let session := (Session.start {} () files).put "a" "\"x,y\""
    let opened := (startLoop env "foreach(a)").leaves session
    let body : List Text := ["unset a", "foreach('p,q',a)", "parse f.txt \x7ba = 4\x7d", "endfor", "break"]
    let ready := body.foldl (fun session line => (collect env (execLine env 4) line).leaves session) opened
    ((collect env (execLine env 4) "endfor").leaves ready).store.get? "a" = .ok (some ("\"x,y\"" : Text)) ∧
      ∃ closed : Session Unit, closed.frame.loops = [] ∧ closed.store.get? "a" = .ok (some ("\"x,y\"" : Text)) ∧
        Flow.abandonAll env ready = Flow.abandonLoops env 0 closed := by
  intro env files session opened body ready
  have parsed : LoopHeader.parse "foreach(a)" = .ok (.list "a" none) := by decide +kernel
  obtain ⟨reached, loop, opens, stack, reading, closes⟩ :=
    @listLoop_restores Unit session "foreach(a)" "a" "\"x,y\"" env 4 none (by decide) parsed
      ⟨⟨by decide +kernel, by decide +kernel⟩, by decide +kernel⟩ (by decide +kernel)
  have known : opened = reached := congrArg (fun result => Run.leaves (fun _ => result) session) opens
  have reads : Reads env (execLine env 4) reached ready :=
    known ▸ .line "break"
      (.line "endfor" (.line "parse f.txt \x7ba = 4\x7d" (.line "foreach('p,q',a)" (.line "unset a" .opened
      (by decide +kernel)) (by decide +kernel)) (by decide +kernel)) (by decide +kernel)) (by decide +kernel)
  obtain ⟨single, lines, here⟩ := reading ready reads
  obtain ⟨ends, abandons, -⟩ := closes ready lines [] here single
  exact ⟨ends "endfor" (by decide +kernel) (Run.eq_of_agree (by decide +kernel)), abandons⟩

end Interpreter

end CommandScript
