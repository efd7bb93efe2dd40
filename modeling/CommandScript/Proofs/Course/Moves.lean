import CommandScript.Proofs.Release.Loops
import CommandScript.Proofs.Scoping.Following

/-! The course of a run: what the lines of a script do to its frame and to the host, one move after another. A line is
a move that has a course of its own between the events of its start and its end, and so is a script file that is run in
a frame of its own. A course has a floor: the loops below that depth of the stack stay where they are and keep what
they run over. -/

namespace CommandScript

variable {σ Log : Type}

/-- A loop goes on as it was: it has its variable and what it runs over, and its body is not read anew. -/
structure Loop.Stays (before after : Loop) : Prop where
  name : after.name = before.name
  source : after.source = before.source
  reads : after.isCollecting = true → before.isCollecting = true

theorem Loop.Stays.refl (loop : Loop) : loop.Stays loop := ⟨rfl, rfl, id⟩

theorem Loop.Stays.trans {first second third : Loop} (one : first.Stays second) (two : second.Stays third) :
    first.Stays third := ⟨two.name.trans one.name, two.source.trans one.source, one.reads ∘ two.reads⟩

namespace Frame

/-- What a single move does to the frame of the running script. -/
inductive Change (floor : Nat) (before : Frame) : Frame → Prop
  /-- The script goes on to another line, or to another branch. -/
  | mark {after : Frame} (loops : after.loops = before.loops) (aliases : after.aliases = before.aliases) :
      Change floor before after
  | define (entry : Alias) :
      Change floor before (before.withAliasTables (AliasTable.define before.aliasTables before.loops.length entry))
  | remove (name : Text) :
      Change floor before (before.withAliasTables (before.aliasTables.map (AliasTable.remove · name)))
  | push (loop : Loop) (bare : loop.aliases = []) : Change floor before { before with loops := loop :: before.loops }
  /-- The innermost loop goes over to its next stage. -/
  | turn (f : Loop → Loop) (stays : ∀ loop : Loop, loop.Stays (f loop))
      (aliases : ∀ loop, (f loop).aliases = loop.aliases) :
      Change floor before (before.modifyLoop f)
  | advance {depth : Nat} (above : floor ≤ depth) (source : LoopSource) :
      Change floor before (before.modifyLoopAt depth ({ · with source }))
  /-- The innermost loop is taken from the stack. -/
  | pop (above : floor < before.loops.length) : Change floor before { before with loops := before.loops.drop 1 }

theorem Change.refl (floor : Nat) (frame : Frame) : frame.Change floor frame := .mark rfl rfl

theorem Change.lower {floor higher : Nat} {before after : Frame} (le : floor ≤ higher)
    (change : before.Change higher after) : before.Change floor after := by
  cases change with
  | mark loops aliases => exact .mark loops aliases
  | define entry => exact .define entry
  | remove name => exact .remove name
  | push loop bare => exact .push loop bare
  | turn f stays aliases => exact .turn f stays aliases
  | advance above source => exact .advance (Nat.le_trans le above) source
  | pop above => exact .pop (by omega)

def Stands (floor : Nat) (before after : Frame) : Prop :=
  ∀ index < floor, ∀ loop, before.loopAt? index = some loop →
    ∃ now, after.loopAt? index = some now ∧ loop.Stays now

theorem Stands.refl (floor : Nat) (frame : Frame) : frame.Stands floor frame :=
  fun _ _ loop found => ⟨loop, found, .refl loop⟩

theorem Stands.trans {floor : Nat} {first second third : Frame} (one : first.Stands floor second)
    (two : second.Stands floor third) : first.Stands floor third := by
  intro index below loop found
  obtain ⟨middle, still, stays⟩ := one index below loop found
  obtain ⟨last, there, goesOn⟩ := two index below middle still
  exact ⟨last, there, stays.trans goesOn⟩

theorem Stands.of_loops {floor : Nat} {before after : Frame} (loops : after.loops = before.loops) :
    before.Stands floor after := by
  intro index _ loop found
  refine ⟨loop, ?_, .refl loop⟩
  rw [loopAt?, loops]
  exact found

theorem Stands.of_forall₂ {floor : Nat} {before after : Frame}
    (all : List.Forall₂ Loop.Stays before.loops after.loops) :
    before.Stands floor after := by
  intro index _ loop found
  have reversed := List.forall₂_reverse_iff.mpr all
  obtain ⟨inside, same⟩ := List.getElem?_eq_some_iff.mp found
  have there : index < after.loops.reverse.length := reversed.length_eq ▸ inside
  refine ⟨after.loops.reverse[index], List.getElem?_eq_getElem there, ?_⟩
  rw [← same]
  exact (List.forall₂_iff_get.mp reversed).2 index inside there

theorem stays_all_refl (loops : List Loop) : List.Forall₂ Loop.Stays loops loops :=
  List.forall₂_same.mpr fun loop _ => .refl loop

theorem withAliasTables_stays {frame : Frame} {tables : List AliasTable}
    (enough : tables.length = frame.loops.length + 1) :
    List.Forall₂ Loop.Stays frame.loops (frame.withAliasTables tables).loops :=
  zipAliases_all (fun _ _ => ⟨rfl, rfl, id⟩) (by simp [enough])

theorem define_length (frame : Frame) (entry : Alias) :
    (AliasTable.define frame.aliasTables frame.loops.length entry).length = frame.loops.length + 1 := by
  rw [AliasTable.define_length, aliasTables_length]

theorem remove_length (frame : Frame) (name : Text) :
    (frame.aliasTables.map (AliasTable.remove · name)).length = frame.loops.length + 1 := by
  rw [List.length_map, aliasTables_length]

theorem Change.stands {floor : Nat} {before after : Frame} (change : before.Change floor after) :
    before.Stands floor after := by
  cases change with
  | mark loops _ => exact .of_loops loops
  | define entry => exact .of_forall₂ (withAliasTables_stays (before.define_length entry))
  | remove name => exact .of_forall₂ (withAliasTables_stays (before.remove_length name))
  | push loop bare =>
      intro index _ standing found
      refine ⟨standing, ?_, .refl standing⟩
      obtain ⟨inside, _⟩ := List.getElem?_eq_some_iff.mp found
      rw [loopAt?, List.reverse_cons, List.getElem?_append_left inside]
      exact found
  | turn f stays _ =>
      refine .of_forall₂ ?_
      unfold modifyLoop
      cases before.loops with
      | nil => exact .nil
      | cons first rest => exact .cons (stays first) (stays_all_refl rest)
  | @advance depth above source =>
      intro index below loop found
      refine ⟨loop, ?_, .refl loop⟩
      simp only [loopAt?, modifyLoopAt, List.reverse_reverse] at found ⊢
      have apart : depth ≠ index := by omega
      simp only [List.getElem?_modify, found, if_neg apart, Option.map_eq_map, Option.map_some]
  | pop above =>
      intro index below loop found
      refine ⟨loop, ?_, .refl loop⟩
      simp only [loopAt?] at found ⊢
      rw [List.getElem?_reverse (by omega)] at found
      rw [List.getElem?_reverse (by rw [List.length_drop]; omega), List.getElem?_drop, List.length_drop, ← found]
      congr 1
      omega

end Frame

def Session.Grounded (floor : Nat) (session : Session σ) : Prop :=
  ∀ index, index + 1 = floor → ∃ loop, session.frame.loopAt? index = some loop ∧ loop.isCollecting = false

theorem Session.Grounded.bottom (session : Session σ) : session.Grounded 0 := fun _ none => nomatch none

theorem Session.Grounded.below_collecting {floor : Nat} {session : Session σ} {loop : Loop} {outer : List Loop}
    (grounded : session.Grounded floor) (stack : session.frame.loops = loop :: outer)
    (collecting : loop.isCollecting = true) : floor ≤ outer.length := by
  cases floor with
  | zero => exact Nat.zero_le _
  | succ index =>
      obtain ⟨top, found, read⟩ := grounded index rfl
      obtain ⟨inside, place⟩ := List.getElem?_eq_some_iff.mp found
      simp only [stack, List.length_reverse, List.length_cons] at inside
      have different : index ≠ outer.length := by
        intro same
        have here : session.frame.loopAt? index = some loop := by
          simp [Frame.loopAt?, stack, same]
        rw [here] at found
        cases found
        rw [collecting] at read
        cases read
      omega

namespace Interpreter

/-- How a line is closed where its statements have led to: by the event of its end, or by that of its error. Any other
exit leaves it open. -/
inductive Closed (env : Env σ) (text : Text) : Except Exit Unit → Session σ → Session σ → Prop
  | ended {last after : Session σ} (told : emit env "after_line" [text] last = .ok () after) :
      Closed env text (.ok ()) last after
  | failed {error : ScriptError} {last after : Session σ}
      (told : emit env "on_error" [(locate last.frame text error).kind.label] last = .ok () after) :
      Closed env text (.error (.error error)) last after
  | left {exit : Exit} {last : Session σ} (other : ∀ error, exit ≠ .error error) : Closed env text
      (.error exit) last last
  | unheardEnd {last after : Session σ} {exit : Exit} (told : emit env "after_line" [text] last = .error exit after) :
      Closed env text (.ok ()) last after
  | unheardError {error : ScriptError} {last after : Session σ} {exit : Exit}
      (told : emit env "on_error" [(locate last.frame text error).kind.label] last = .error exit after) :
      Closed env text (.error (.error error)) last after

end Interpreter

open Interpreter

/-- The course of a run from one session to another. -/
inductive Course (env : Env σ) (log : σ → Log) : Nat → Session σ → Session σ → Prop
  | refl (floor : Nat) (session : Session σ) : Course env log floor session session
  | trans {floor : Nat} {first second third : Session σ} :
      Course env log floor first second → Course env log floor second third → Course env log floor first third
  | move {floor : Nat} {before after : Session σ} (change : before.frame.Change floor after.frame)
      (callers : after.callers = before.callers) (quiet : log after.host = log before.host) :
      Course env log floor before after
  /-- A listener fails, and the line does not start. -/
  | refused {floor : Nat} {text : Text} {before after : Session σ} {exit : Exit}
      (told : emit env "before_line" [text] before = .error exit after) : Course env log floor before after
  | line {floor depth : Nat} {text : Text} {ending : Except Exit Unit} {before started last after : Session σ}
      (told : emit env "before_line" [text] before = .ok () started)
      (ran : Run.attempt (execLine env depth text) started = .ok ending last)
      (runs : Course env log floor started last) (closes : Closed env text ending last after) :
      Course env log floor before after
  | file {floor : Nat} {before entered last after : Session σ} (loops : entered.frame.loops = [])
      (aliases : entered.frame.aliases = []) (waits : entered.callers = before.frame :: before.callers)
      (opens : log entered.host = log before.host) (runs : Course env log 0 entered last)
      (frame : after.frame = before.frame) (callers : after.callers = before.callers)
      (closes : log after.host = log last.host) : Course env log floor before after

def Run.ends (program : Run σ Unit) (session : Session σ) : Bool :=
  match program session with
  | .ok _ _ => true
  | .error _ _ => false

theorem Run.ends_ok {program : Run σ Unit} {session : Session σ} (ended : program.ends session = true) :
    program session = .ok () (program.leaves session) := by
  unfold ends at ended
  unfold leaves
  cases ran : program session with
  | ok _ after => rfl
  | error exit after =>
      rw [ran] at ended
      cases ended

theorem Interpreter.emit_run (env : Env σ) (event : Text) (args : List Text) (session : Session σ) :
    ∃ store host, (emit env event args).leaves session = { session with store, host } := by
  refine ⟨session.store.setAll (env.services.emit event args session.host).1.writes,
    (env.services.emit event args session.host).2, ?_⟩
  unfold emit
  rw [Run.leaves_bind]
  simp only [Run.askSetting, Run.consult, bind, EStateM.bind, EStateM.modify_apply, pure, EStateM.pure]
  cases (env.services.emit event args session.host).1.result with
  | ok value => rfl
  | error raised => cases raised <;> rfl

theorem Interpreter.emit_frame {env : Env σ} {event : Text} {args : List Text} {before after : Session σ}
    (left : (emit env event args).leaves before = after) :
    after.frame = before.frame ∧ after.callers = before.callers := by
  obtain ⟨store, host, same⟩ := emit_run env event args before
  rw [← left, same]
  exact ⟨rfl, rfl⟩

theorem Interpreter.Closed.frame {env : Env σ} {text : Text} {ending : Except Exit Unit} {last after : Session σ}
    (closes : Closed env text ending last after) : after.frame = last.frame ∧ after.callers = last.callers := by
  cases closes with
  | ended told | failed told => exact emit_frame (Run.leaves_ok told)
  | unheardEnd told | unheardError told => exact emit_frame (Run.leaves_error told)
  | left _ => exact ⟨rfl, rfl⟩

namespace Course

variable {env : Env σ} {log : σ → Log} {floor : Nat} {before after : Session σ}

theorem lower {higher : Nat} (course : Course env log higher before after) (le : floor ≤ higher) :
    Course env log floor before after := by
  induction course with
  | refl higher session => exact .refl floor session
  | trans _ _ one two => exact .trans (one le) (two le)
  | move change callers quiet => exact .move (change.lower le) callers quiet
  | refused told => exact .refused told
  | line told ran _ closes runs => exact .line told ran (runs le) closes
  | file loops aliases waits opens runs frame callers closes _ =>
      exact .file loops aliases waits opens runs frame callers closes

theorem callers (course : Course env log floor before after) : after.callers = before.callers := by
  induction course with
  | refl floor session => rfl
  | trans _ _ one two => exact two.trans one
  | move _ callers _ => exact callers
  | refused told => exact (emit_frame (Run.leaves_error told)).2
  | line told _ _ closes runs => exact closes.frame.2.trans (runs.trans (emit_frame (Run.leaves_ok told)).2)
  | file _ _ _ _ _ _ callers _ _ => exact callers

theorem stands (course : Course env log floor before after) : before.frame.Stands floor after.frame := by
  induction course with
  | refl floor session => exact .refl floor session.frame
  | trans _ _ one two => exact one.trans two
  | move change _ _ => exact change.stands
  | refused told => exact .of_loops (congrArg Frame.loops (emit_frame (Run.leaves_error told)).1)
  | line told _ _ closes runs =>
      have started := congrArg Frame.loops (emit_frame (Run.leaves_ok told)).1
      exact ((Frame.Stands.of_loops started).trans runs).trans (.of_loops (congrArg Frame.loops closes.frame.1))
  | file _ _ _ _ _ frame _ _ _ => exact .of_loops (congrArg Frame.loops frame)

theorem grounded (course : Course env log floor before after) (grounded : before.Grounded floor) :
    after.Grounded floor := by
  intro index top
  obtain ⟨loop, found, read⟩ := grounded index top
  obtain ⟨now, there, stays⟩ := course.stands index (by omega) loop found
  refine ⟨now, there, Bool.eq_false_iff.mpr fun reading => ?_⟩
  rw [stays.reads reading] at read
  cases read

end Course

end CommandScript
