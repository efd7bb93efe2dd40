import CommandScript.Proofs.Respect.Statements
import Mathlib.Data.List.Forall2
import Mathlib.Data.List.Nodup

/-!
The history of the loops of a session. A loop stands on the stack of its script from the moment it is
opened until it is taken off, and its history says how: it was released, it was displaced by the end of
another loop, or its script was left without it. What a program may do to the loops is said once, for
the part of the stack that it must leave alone.
-/

namespace CommandScript

variable {σ α β : Type}

/-- The same loop at another time. A body that has been read is not read again. -/
structure Loop.Same (before after : Loop) : Prop where
  serial : after.serial = before.serial
  source : after.sourceKey? = before.sourceKey?
  collecting : after.isCollecting = true → before.isCollecting = true

theorem Loop.Same.refl (loop : Loop) : loop.Same loop := ⟨rfl, rfl, id⟩

theorem Loop.Same.trans {first second third : Loop} (one : first.Same second) (two : second.Same third) :
    first.Same third :=
  ⟨two.serial.trans one.serial, two.source.trans one.source, fun reads => one.collecting (two.collecting reads)⟩

theorem Loop.Same.all_refl (loops : List Loop) : List.Forall₂ Loop.Same loops loops :=
  List.forall₂_same.mpr fun loop _ => .refl loop

theorem Loop.Same.all_trans {first second third : List Loop} (one : List.Forall₂ Loop.Same first second)
    (two : List.Forall₂ Loop.Same second third) : List.Forall₂ Loop.Same first third := by
  induction one generalizing third with
  | nil => exact two
  | cons head _ ih =>
      cases two with
      | cons next rest => exact .cons (head.trans next) (ih rest)

theorem Loop.Same.serials {before after : List Loop} (same : List.Forall₂ Loop.Same before after) :
    after.map (·.serial) = before.map (·.serial) := by
  induction same with
  | nil => rfl
  | cons first _ ih => rw [List.map_cons, List.map_cons, first.serial, ih]

theorem Loop.Same.mem {before after : List Loop} (same : List.Forall₂ Loop.Same before after) {loop : Loop}
    (member : loop ∈ after) : ∃ earlier ∈ before, earlier.Same loop := by
  induction same with
  | nil => cases member
  | cons first _ ih =>
      rcases List.mem_cons.mp member with rfl | later
      · exact ⟨_, List.mem_cons_self, first⟩
      · obtain ⟨earlier, inside, same⟩ := ih later
        exact ⟨earlier, List.mem_cons_of_mem _ inside, same⟩

theorem Loop.Same.tails {before after : List Loop} (same : List.Forall₂ Loop.Same before after) :
    List.Forall₂ Loop.Same before.tail after.tail := by
  cases same with
  | nil => exact .nil
  | cons _ rest => exact rest

theorem Loop.Same.read {before after : Loop} (same : before.Same after) (read : before.isCollecting = false) :
    after.isCollecting = false := by
  cases reads : after.isCollecting with
  | false => rfl
  | true =>
      rw [same.collecting reads] at read
      cases read

/-- The history of a loop on the stack, the latest step first. -/
inductive Standing (loop : Loop) : List LoopStep → Prop where
  | open : Standing loop [.opened loop.sourceKey?]
  | ended : loop.isCollecting = false →
      Standing loop [.released loop.sourceKey?, .kept, .opened loop.sourceKey?]

/-- The history of a loop that has been taken from the stack. -/
inductive Settled : List LoopStep → Prop where
  | released (loop : Loop) (steps : List LoopStep) : Standing loop steps →
      Settled (.released loop.sourceKey? :: steps)
  | displaced (loop : Loop) (steps : List LoopStep) : Standing loop steps → Settled (.displaced :: steps)
  | lost (loop : Loop) (steps : List LoopStep) : Standing loop steps → Settled (.lost :: steps)

theorem Standing.same {before after : Loop} {steps : List LoopStep} (stands : Standing before steps)
    (same : before.Same after) : Standing after steps := by
  cases stands with
  | «open» =>
      rw [← same.source]
      exact .open
  | ended read =>
      rw [← same.source]
      exact .ended (same.read read)

def stepsOf (serial : Nat) (history : List LoopEvent) : List LoopStep :=
  (history.filter (·.serial = serial)).map (·.step)

theorem stepsOf_own (serial : Nat) (step : LoopStep) (history : List LoopEvent) :
    stepsOf serial (⟨serial, step⟩ :: history) = step :: stepsOf serial history := by
  simp [stepsOf]

theorem stepsOf_other {number serial : Nat} (differs : serial ≠ number) (step : LoopStep)
    (history : List LoopEvent) : stepsOf serial (⟨number, step⟩ :: history) = stepsOf serial history := by
  simp [stepsOf, differs.symm]

namespace Session

def story (session : Session σ) (serial : Nat) : List LoopStep := stepsOf serial session.history

def waitingLoops (session : Session σ) : List Loop := session.callers.flatMap (·.loops)

def openLoops (session : Session σ) : List Loop := session.frame.loops ++ session.waitingLoops

structure Sound (session : Session σ) : Prop where
  distinct : (session.openLoops.map (·.serial)).Nodup
  numbered : ∀ loop ∈ session.openLoops, loop.serial < session.loopCount
  unborn : ∀ serial, session.loopCount ≤ serial → session.story serial = []
  standing : ∀ loop ∈ session.openLoops, Standing loop (session.story loop.serial)
  settled : ∀ serial, serial ∉ session.openLoops.map (·.serial) → session.story serial ≠ [] →
    Settled (session.story serial)
  /-- Only the innermost loop of a script can be one whose body is being read. -/
  innermost : ∀ frame ∈ session.frame :: session.callers, ∀ loop ∈ frame.loops.tail, loop.isCollecting = false
  /-- A loop stays behind only where another one was taken. -/
  paired : ∀ serial, .kept ∈ session.story serial → ∃ other, .displaced ∈ session.story other

end Session

/-- The loops that must stay are at the bottom of the stack. -/
def Over (floor loops : List Loop) : Prop := ∃ top rest, loops = top ++ rest ∧ List.Forall₂ Loop.Same floor rest

/-- A session in which a program may run that must leave the loops of the floor alone. -/
structure Ready (floor : List Loop) (session : Session σ) : Prop where
  sound : session.Sound
  above : Over floor session.frame.loops
  read : ∀ loop ∈ floor, loop.isCollecting = false

theorem Ready.bottom {session : Session σ} (sound : session.Sound) : Ready [] session :=
  ⟨sound, ⟨session.frame.loops, [], (List.append_nil _).symm, .nil⟩, nofun⟩

structure Moves (floor : List Loop) (before after : Session σ) : Prop where
  ready : Ready floor after
  callers : after.callers = before.callers
  untouched : ∀ loop ∈ floor ++ before.waitingLoops, after.story loop.serial = before.story loop.serial

theorem Moves.trans {floor : List Loop} {first second third : Session σ} (one : Moves floor first second)
    (two : Moves floor second third) : Moves floor first third where
  ready := two.ready
  callers := two.callers.trans one.callers
  untouched := by
    intro loop member
    have waiting : second.waitingLoops = first.waitingLoops := by simp only [Session.waitingLoops, one.callers]
    rw [two.untouched loop (by rwa [waiting]), one.untouched loop member]

/-- The session has the same loops, and nothing has become of them. -/
structure Still (before after : Session σ) : Prop where
  loops : after.frame.loops = before.frame.loops
  callers : after.callers = before.callers
  loopCount : after.loopCount = before.loopCount
  history : after.history = before.history

theorem Still.refl (session : Session σ) : Still session session := ⟨rfl, rfl, rfl, rfl⟩

theorem Still.trans {first second third : Session σ} (one : Still first second) (two : Still second third) :
    Still first third :=
  ⟨two.loops.trans one.loops, two.callers.trans one.callers, two.loopCount.trans one.loopCount,
    two.history.trans one.history⟩

theorem Session.Sound.relabel {before after : Session σ} (sound : before.Sound)
    (loops : List.Forall₂ Loop.Same before.frame.loops after.frame.loops) (callers : after.callers = before.callers)
    (loopCount : after.loopCount = before.loopCount) (history : after.history = before.history) :
    after.Sound := by
  have waiting : after.waitingLoops = before.waitingLoops := by simp only [waitingLoops, callers]
  have all : List.Forall₂ Loop.Same before.openLoops after.openLoops := by
    rw [openLoops, openLoops, waiting]
    exact List.rel_append loops (Loop.Same.all_refl _)
  have stories (serial : Nat) : after.story serial = before.story serial := by simp only [story, history]
  have serials := Loop.Same.serials all
  refine ⟨?_, ?_, ?_, ?_, ?_, ?_, ?_⟩
  · rw [serials]
    exact sound.distinct
  · intro loop member
    obtain ⟨earlier, inside, same⟩ := Loop.Same.mem all member
    rw [same.serial, loopCount]
    exact sound.numbered earlier inside
  · intro serial late
    rw [stories]
    exact sound.unborn serial (loopCount ▸ late)
  · intro loop member
    obtain ⟨earlier, inside, same⟩ := Loop.Same.mem all member
    rw [same.serial, stories]
    exact (sound.standing earlier inside).same same
  · intro serial gone
    rw [stories]
    exact sound.settled serial (serials ▸ gone)
  · intro frame member loop inside
    rcases List.mem_cons.mp member with rfl | waits
    · obtain ⟨earlier, below, same⟩ := Loop.Same.mem (Loop.Same.tails loops) inside
      exact same.read (sound.innermost before.frame List.mem_cons_self earlier below)
    · exact sound.innermost frame (List.mem_cons_of_mem _ (callers ▸ waits)) loop inside
  · intro serial kept
    rw [stories] at kept
    obtain ⟨other, taken⟩ := sound.paired serial kept
    exact ⟨other, by rwa [stories]⟩

theorem Over.relabel {floor before after : List Loop} (above : Over floor before)
    (same : List.Forall₂ Loop.Same before after) : Over floor after := by
  obtain ⟨top, rest, rfl, stays⟩ := above
  refine ⟨after.take top.length, after.drop top.length, (List.take_append_drop _ _).symm, ?_⟩
  have below := List.forall₂_drop top.length same
  rw [List.drop_left] at below
  exact Loop.Same.all_trans stays below

theorem Over.below_collecting {floor : List Loop} {loop : Loop} {outer : List Loop} (above : Over floor (loop :: outer))
    (read : ∀ loop ∈ floor, loop.isCollecting = false) (collecting : loop.isCollecting = true) :
    Over floor outer := by
  obtain ⟨top, rest, whole, stays⟩ := above
  cases top with
  | nil =>
      cases stays with
      | nil => cases whole
      | cons same _ =>
          rw [List.nil_append, List.cons.injEq] at whole
          rw [← whole.1] at same
          rw [same.read (read _ List.mem_cons_self)] at collecting
          cases collecting
  | cons first top =>
      rw [List.cons_append, List.cons.injEq] at whole
      exact ⟨top, rest, whole.2, stays⟩

theorem Over.above {floor loops : List Loop} (above : Over floor loops) (top : List Loop) :
    Over floor (top ++ loops) := by
  obtain ⟨between, rest, whole, stays⟩ := above
  exact ⟨top ++ between, rest, by rw [whole, List.append_assoc], stays⟩

theorem Over.serial_mem {floor loops : List Loop} (above : Over floor loops) {loop : Loop} (member : loop ∈ floor) :
    loop.serial ∈ loops.map (·.serial) := by
  obtain ⟨top, rest, rfl, stays⟩ := above
  rw [List.map_append, Loop.Same.serials stays]
  exact List.mem_append_right _ (List.mem_map_of_mem member)

theorem Moves.relabel {floor : List Loop} {before after : Session σ} (ready : Ready floor before)
    (loops : List.Forall₂ Loop.Same before.frame.loops after.frame.loops) (callers : after.callers = before.callers)
    (loopCount : after.loopCount = before.loopCount) (history : after.history = before.history) :
    Moves floor before after where
  ready := ⟨ready.sound.relabel loops callers loopCount history, ready.above.relabel loops, ready.read⟩
  callers := callers
  untouched := by
    intro loop _
    simp only [Session.story, history]

theorem Still.moves {floor : List Loop} {before after : Session σ} (ready : Ready floor before)
    (still : Still before after) : Moves floor before after := by
  refine Moves.relabel ready ?_ still.callers still.loopCount still.history
  rw [still.loops]
  exact Loop.Same.all_refl _

/-- The ways in which a loop goes from the stack. -/
def Settles (loop : Loop) (step : LoopStep) : Prop :=
  step = .released loop.sourceKey? ∨ step = .displaced ∨ step = .lost

theorem Settles.settled {loop : Loop} {step : LoopStep} {steps : List LoopStep} (settles : Settles loop step)
    (stands : Standing loop steps) : Settled (step :: steps) := by
  rcases settles with rfl | rfl | rfl
  · exact .released loop steps stands
  · exact .displaced loop steps stands
  · exact .lost loop steps stands

theorem Session.Sound.pop {before after : Session σ} {loop : Loop} {rest : List Loop} {step : LoopStep}
    (sound : before.Sound) (innermost : before.frame.loops = loop :: rest) (settles : Settles loop step)
    (loops : after.frame.loops = rest) (callers : after.callers = before.callers)
    (loopCount : after.loopCount = before.loopCount) (history : after.history = ⟨loop.serial, step⟩ :: before.history) :
    after.Sound := by
  have waiting : after.waitingLoops = before.waitingLoops := by simp only [waitingLoops, callers]
  have all : before.openLoops = loop :: after.openLoops := by
    simp only [openLoops, innermost, loops, waiting, List.cons_append]
  have distinct := sound.distinct
  rw [all, List.map_cons, List.nodup_cons] at distinct
  have others {serial : Nat} (differs : serial ≠ loop.serial) : after.story serial = before.story serial := by
    rw [story, history, stepsOf_other differs, story]
  have now : after.story loop.serial = step :: before.story loop.serial := by
    rw [story, history, stepsOf_own, story]
  have number : loop.serial < before.loopCount := sound.numbered loop (by rw [all]; exact List.mem_cons_self)
  refine ⟨distinct.2, ?_, ?_, ?_, ?_, ?_, ?_⟩
  · intro other member
    rw [loopCount]
    exact sound.numbered other (by rw [all]; exact List.mem_cons_of_mem _ member)
  · intro serial late
    rw [loopCount] at late
    rw [others (by omega)]
    exact sound.unborn serial late
  · intro other member
    have differs : other.serial ≠ loop.serial := by
      intro same
      exact distinct.1 (same ▸ List.mem_map_of_mem member)
    rw [others differs]
    exact sound.standing other (by rw [all]; exact List.mem_cons_of_mem _ member)
  · intro serial gone
    -- this loop is the only one that is no longer open
    by_cases same : serial = loop.serial
    · subst same
      rw [now]
      intro _
      exact settles.settled (sound.standing loop (by rw [all]; exact List.mem_cons_self))
    · rw [others same]
      refine sound.settled serial ?_
      rw [all, List.map_cons, List.mem_cons, not_or]
      exact ⟨same, gone⟩
  · intro frame member other inside
    rcases List.mem_cons.mp member with rfl | waits
    · refine sound.innermost before.frame List.mem_cons_self other ?_
      rw [innermost, List.tail_cons, ← loops]
      exact List.mem_of_mem_tail inside
    · exact sound.innermost frame (List.mem_cons_of_mem _ (callers ▸ waits)) other inside
  · intro serial kept
    have earlier : .kept ∈ before.story serial := by
      by_cases same : serial = loop.serial
      · subst same
        rw [now] at kept
        rcases List.mem_cons.mp kept with here | before
        · rcases settles with rfl | rfl | rfl <;> cases here
        · exact before
      · rwa [others same] at kept
    obtain ⟨other, taken⟩ := sound.paired serial earlier
    refine ⟨other, ?_⟩
    by_cases same : other = loop.serial
    · subst same
      rw [now]
      exact List.mem_cons_of_mem _ taken
    · rwa [others same]

theorem Session.Sound.keep {before after : Session σ} {loop : Loop} (sound : before.Sound)
    (member : loop ∈ before.openLoops) (story : before.story loop.serial = [.opened loop.sourceKey?])
    (read : loop.isCollecting = false) (taken : ∃ other, .displaced ∈ before.story other)
    (loops : after.frame.loops = before.frame.loops) (callers : after.callers = before.callers)
    (loopCount : after.loopCount = before.loopCount)
    (history : after.history =
      ⟨loop.serial, .released loop.sourceKey?⟩ :: ⟨loop.serial, .kept⟩ :: before.history) : after.Sound := by
  have waiting : after.waitingLoops = before.waitingLoops := by simp only [waitingLoops, callers]
  have all : after.openLoops = before.openLoops := by simp only [openLoops, loops, waiting]
  have others {serial : Nat} (differs : serial ≠ loop.serial) : after.story serial = before.story serial := by
    rw [Session.story, history, stepsOf_other differs, stepsOf_other differs, Session.story]
  have now : after.story loop.serial =
      [.released loop.sourceKey?, .kept, .opened loop.sourceKey?] := by
    rw [Session.story, history, stepsOf_own, stepsOf_own, ← story, Session.story]
  have number := sound.numbered loop member
  refine ⟨all ▸ sound.distinct, ?_, ?_, ?_, ?_, ?_, ?_⟩
  · intro other inside
    rw [loopCount]
    exact sound.numbered other (all ▸ inside)
  · intro serial late
    rw [loopCount] at late
    rw [others (by omega)]
    exact sound.unborn serial late
  · intro other inside
    rw [all] at inside
    -- an open loop with this number is the loop itself, since the numbers are distinct
    by_cases same : other.serial = loop.serial
    · have one : other = loop := List.inj_on_of_nodup_map sound.distinct inside member same
      subst one
      rw [now]
      exact .ended read
    · rw [others same]
      exact sound.standing other inside
  · intro serial gone
    rw [all] at gone
    have differs : serial ≠ loop.serial := by
      intro same
      exact gone (same ▸ List.mem_map_of_mem member)
    rw [others differs]
    exact sound.settled serial gone
  · intro frame inside other below
    rcases List.mem_cons.mp inside with rfl | waits
    · exact sound.innermost before.frame List.mem_cons_self other (loops ▸ below)
    · exact sound.innermost frame (List.mem_cons_of_mem _ (callers ▸ waits)) other below
  · intro _ _
    obtain ⟨other, displaced⟩ := taken
    refine ⟨other, ?_⟩
    have differs : other ≠ loop.serial := by
      intro same
      rw [same, story] at displaced
      simp at displaced
    rwa [others differs]

theorem Session.Sound.push {before after : Session σ} {loop : Loop} (sound : before.Sound)
    (read : ∀ innermost ∈ before.frame.loops, innermost.isCollecting = false)
    (serial : loop.serial = before.loopCount) (loops : after.frame.loops = loop :: before.frame.loops)
    (callers : after.callers = before.callers) (loopCount : after.loopCount = before.loopCount + 1)
    (history : after.history = ⟨loop.serial, .opened loop.sourceKey?⟩ :: before.history) : after.Sound := by
  have waiting : after.waitingLoops = before.waitingLoops := by simp only [waitingLoops, callers]
  have all : after.openLoops = loop :: before.openLoops := by
    simp only [openLoops, loops, waiting, List.cons_append]
  have others {number : Nat} (differs : number ≠ loop.serial) : after.story number = before.story number := by
    rw [story, history, stepsOf_other differs, story]
  -- the number is new, so nothing has been noted of it before
  have now : after.story loop.serial = [.opened loop.sourceKey?] := by
    have unborn := sound.unborn loop.serial (by omega)
    rw [story] at unborn
    rw [story, history, stepsOf_own, unborn]
  refine ⟨?_, ?_, ?_, ?_, ?_, ?_, ?_⟩
  · rw [all, List.map_cons, List.nodup_cons]
    refine ⟨?_, sound.distinct⟩
    intro member
    obtain ⟨other, inside, same⟩ := List.mem_map.mp member
    have number := sound.numbered other inside
    omega
  · intro other member
    rw [all] at member
    rcases List.mem_cons.mp member with rfl | inside
    · omega
    · have number := sound.numbered other inside
      omega
  · intro number late
    rw [others (by omega)]
    exact sound.unborn number (by omega)
  · intro other member
    rw [all] at member
    rcases List.mem_cons.mp member with rfl | inside
    · rw [now]
      exact .open
    · have number := sound.numbered other inside
      rw [others (by omega)]
      exact sound.standing other inside
  · intro number gone
    rw [all, List.map_cons, List.mem_cons, not_or] at gone
    rw [others gone.1]
    exact sound.settled number gone.2
  · intro frame member other inside
    rcases List.mem_cons.mp member with rfl | waits
    · rw [loops, List.tail_cons] at inside
      exact read other inside
    · exact sound.innermost frame (List.mem_cons_of_mem _ (callers ▸ waits)) other inside
  · intro number kept
    have differs : number ≠ loop.serial := by
      intro same
      rw [same, now] at kept
      simp at kept
    rw [others differs] at kept
    obtain ⟨other, taken⟩ := sound.paired number kept
    refine ⟨other, ?_⟩
    have apart : other ≠ loop.serial := by
      intro same
      rw [same, sound.unborn loop.serial (by omega)] at taken
      cases taken
    rwa [others apart]

theorem Moves.push {floor : List Loop} {before after : Session σ} {loop : Loop} (ready : Ready floor before)
    (read : ∀ innermost ∈ before.frame.loops, innermost.isCollecting = false)
    (serial : loop.serial = before.loopCount) (loops : after.frame.loops = loop :: before.frame.loops)
    (callers : after.callers = before.callers) (loopCount : after.loopCount = before.loopCount + 1)
    (history : after.history = ⟨loop.serial, .opened loop.sourceKey?⟩ :: before.history) :
    Moves floor before after := by
  obtain ⟨sound, ⟨top, rest, stack, stays⟩, floorRead⟩ := ready
  refine ⟨⟨sound.push read serial loops callers loopCount history, ?_, floorRead⟩, callers, ?_⟩
  · refine ⟨loop :: top, rest, ?_, stays⟩
    rw [loops, stack, List.cons_append]
  · intro other member
    have number : other.serial < before.loopCount := by
      rcases List.mem_append.mp member with below | waits
      · have serials := Loop.Same.serials stays
        have inside : other.serial ∈ rest.map (·.serial) := serials ▸ List.mem_map_of_mem below
        obtain ⟨standing, found, same⟩ := List.mem_map.mp inside
        rw [← same]
        refine sound.numbered standing (List.mem_append_left _ ?_)
        rw [stack]
        exact List.mem_append_right _ found
      · exact sound.numbered other (List.mem_append_right _ waits)
    rw [Session.story, history, stepsOf_other (by omega), Session.story]

theorem Moves.pop {before after : Session σ} {loop : Loop} {rest : List Loop} {step : LoopStep}
    (ready : Ready [] before) (innermost : before.frame.loops = loop :: rest) (settles : Settles loop step)
    (loops : after.frame.loops = rest) (callers : after.callers = before.callers)
    (loopCount : after.loopCount = before.loopCount) (history : after.history = ⟨loop.serial, step⟩ :: before.history) :
    Moves [] before after := by
  refine ⟨.bottom (ready.sound.pop innermost settles loops callers loopCount history), callers, ?_⟩
  intro other member
  have distinct := ready.sound.distinct
  rw [Session.openLoops, innermost, List.cons_append, List.map_cons, List.nodup_cons] at distinct
  have differs : other.serial ≠ loop.serial := by
    intro same
    exact distinct.1 (same ▸ List.mem_map_of_mem (List.mem_append_right _ member))
  rw [Session.story, history, stepsOf_other differs, Session.story]

theorem Session.noteLost_kept (session : Session σ) (loops : List Loop) :
    let after := loops.foldl (fun session loop => session.note loop .lost) session
    after.frame = session.frame ∧ after.callers = session.callers ∧ after.loopCount = session.loopCount ∧
      after.store = session.store ∧ after.host = session.host := by
  induction loops generalizing session with
  | nil => exact ⟨rfl, rfl, rfl, rfl, rfl⟩
  | cons loop rest ih => exact ih (session.note loop .lost)

theorem Moves.lose {before after : Session σ} (ready : Ready [] before) (loops : after.frame.loops = [])
    (callers : after.callers = before.callers) (loopCount : after.loopCount = before.loopCount)
    (history : after.history = before.noteLost.history) : Moves [] before after := by
  unfold Session.noteLost at history
  generalize stack : before.frame.loops = left at history
  induction left generalizing before with
  | nil =>
      refine Still.moves ready ⟨?_, callers, loopCount, history⟩
      rw [loops, stack]
  | cons loop rest ih =>
      let popped : Session σ := { before.note loop .lost with frame := { before.frame with loops := rest } }
      have moved : Moves [] before popped := Moves.pop ready stack (.inr (.inr rfl)) rfl rfl rfl rfl
      refine moved.trans (ih moved.ready callers loopCount rfl ?_)
      -- the notes do not look at the stack
      have same (one two : Session σ) (equal : one.history = two.history) :
          (rest.foldl (fun session loop => session.note loop .lost) one).history =
            (rest.foldl (fun session loop => session.note loop .lost) two).history := by
        clear stack history ih moved popped ready callers loopCount
        induction rest generalizing one two with
        | nil => exact equal
        | cons first others ih => exact ih _ _ (by simp only [Session.note, equal])
      rw [history]
      exact same _ _ rfl

theorem Session.Sound.regroup {before after : Session σ} (sound : before.Sound)
    (loops : after.openLoops = before.openLoops) (loopCount : after.loopCount = before.loopCount)
    (history : after.history = before.history)
    (innermost : ∀ frame ∈ after.frame :: after.callers, ∀ loop ∈ frame.loops.tail, loop.isCollecting = false) :
    after.Sound := by
  obtain ⟨distinct, numbered, unborn, standing, settled, _, paired⟩ := sound
  simp only [story, ← history, ← loops, ← loopCount] at distinct numbered unborn standing settled paired
  exact ⟨distinct, numbered, unborn, standing, settled, innermost, paired⟩

theorem Ready.enter {floor : List Loop} {caller entered : Session σ} (ready : Ready floor caller)
    (empty : entered.frame.loops = []) (waits : entered.callers = caller.frame :: caller.callers)
    (loopCount : entered.loopCount = caller.loopCount) (history : entered.history = caller.history) :
    Ready [] entered := by
  refine .bottom (ready.sound.regroup ?_ loopCount history ?_)
  · simp only [Session.openLoops, Session.waitingLoops, empty, waits, List.nil_append, List.flatMap_cons]
  · intro frame member loop inside
    rcases List.mem_cons.mp member with rfl | waiting
    · rw [empty] at inside
      cases inside
    · exact ready.sound.innermost frame (waits ▸ waiting) loop inside

theorem Moves.through {floor : List Loop} {caller entered last after : Session σ} (ready : Ready floor caller)
    (waits : entered.callers = caller.frame :: caller.callers) (past : entered.history = caller.history)
    (moved : Moves [] entered last) (emptied : last.frame.loops = [])
    (frame : after.frame = caller.frame) (callers : after.callers = caller.callers)
    (loopCount : after.loopCount = last.loopCount) (history : after.history = last.history) :
    Moves floor caller after := by
  have lastCallers : last.callers = caller.frame :: caller.callers := moved.callers.trans waits
  have waiting : entered.waitingLoops = caller.openLoops := by
    simp only [Session.openLoops, Session.waitingLoops, waits, List.flatMap_cons]
  refine ⟨⟨moved.ready.sound.regroup ?_ loopCount history ?_, ?_, ready.read⟩, callers, ?_⟩
  · simp only [Session.openLoops, Session.waitingLoops, frame, callers, lastCallers, emptied, List.nil_append,
      List.flatMap_cons]
  · intro running member loop inside
    rw [frame, callers] at member
    exact ready.sound.innermost running member loop inside
  · rw [frame]
    exact ready.above
  · intro loop member
    have known : loop.serial ∈ caller.openLoops.map (·.serial) := by
      rw [Session.openLoops, List.map_append]
      rcases List.mem_append.mp member with standing | waitsToo
      · exact List.mem_append_left _ (ready.above.serial_mem standing)
      · exact List.mem_append_right _ (List.mem_map_of_mem waitsToo)
    obtain ⟨found, inside, serial⟩ := List.mem_map.mp known
    have unchanged := moved.untouched found (waiting ▸ inside)
    rw [serial] at unchanged
    rw [Session.story, history, ← Session.story, unchanged, Session.story, past, Session.story]

end CommandScript
