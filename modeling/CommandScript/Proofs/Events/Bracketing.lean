import CommandScript.Proofs.Course.Lines
import CommandScript.Proofs.Scoping.Watching

/-! The events of lines are bracketed. The lines of a run form a forest: inside a line run the lines of the script files
and loops that it starts. Where the host keeps a log of the events, the log is the forest written down line by line, and
its brackets match just in case no line was left by a return, by the end of the session or by a fault. -/

namespace CommandScript

variable {σ : Type}

inductive LineEvent where
  | opened (line : Text)
  | ended (line : Text)
  | failed (kind : Text)
  deriving DecidableEq, Repr

namespace LineEvent

def name : LineEvent → Text
  | opened _ => "before_line"
  | ended _ => "after_line"
  | failed _ => "on_error"

def args : LineEvent → List Text
  | opened line => [line]
  | ended line => [line]
  | failed kind => [kind]

def weight : LineEvent → Int
  | opened _ => 1
  | ended _ | failed _ => -1

/-- The event closes a line: it is the end of this line, or an error. -/
def closes (line : Text) : LineEvent → Prop
  | opened _ => False
  | ended other => other = line
  | failed _ => True

theorem weight_of_closes {line : Text} {event : LineEvent} (closes : event.closes line) : event.weight = -1 := by
  cases event with
  | opened _ => cases closes
  | ended _ | failed _ => rfl

def excess : List LineEvent → Int
  | [] => 0
  | event :: events => event.weight + excess events

theorem excess_append (events more : List LineEvent) : excess (events ++ more) = excess events + excess more := by
  induction events with
  | nil => exact (Int.zero_add _).symm
  | cons event events ih => rw [List.cons_append, excess, excess, ih, Int.add_assoc]

theorem excess_cons (event : LineEvent) (events : List LineEvent) :
    excess (event :: events) = event.weight + excess events := rfl

theorem excess_opened (line : Text) (inside after : List LineEvent) :
    excess (opened line :: inside ++ after) = 1 + excess inside + excess after := by
  rw [List.cons_append, excess_cons, excess_append, Int.add_assoc]
  rfl

end LineEvent

/-- Every line is closed by one event, after all lines that run inside it. -/
inductive Bracketed : List LineEvent → Prop
  | nil : Bracketed []
  | line {line : Text} {inside after : List LineEvent} {closing : LineEvent} :
      Bracketed inside → closing.closes line → Bracketed after →
        Bracketed (.opened line :: inside ++ closing :: after)

theorem Bracketed.balanced {events : List LineEvent} (bracketed : Bracketed events) : LineEvent.excess events = 0 := by
  induction bracketed with
  | nil => rfl
  | line _ closes _ inner outer =>
      have shuts := LineEvent.weight_of_closes closes
      rw [LineEvent.excess_opened, LineEvent.excess_cons, shuts, inner, outer]
      rfl

/-- The host hears of every line, and keeps a log of what it hears. -/
class Env.Records (env : Env σ) (log : σ → List LineEvent) : Prop extends env.Silent log where
  hears (event : LineEvent) (host : σ) :
    (env.services.emit event.name event.args host).1.result = .ok () ∧
      log (env.services.emit event.name event.args host).2 = log host ++ [event]

/-- A line that has been run: where it started, and where and how it ended. -/
structure LineRun (σ : Type) where
  depth : Nat
  line : Text
  started : Session σ
  last : Session σ
  ending : Except Exit Unit

namespace LineRun

def closing (run : LineRun σ) : List LineEvent :=
  match run.ending with
  | .ok () => [.ended run.line]
  | .error (.error error) => [.failed (Interpreter.locate run.last.frame run.line error).kind.label]
  | .error _ => []

def isClosed (run : LineRun σ) : Bool :=
  match run.ending with
  | .ok () => true
  | .error (.error _) => true
  | .error _ => false

theorem closing_of_closed {run : LineRun σ} (closed : run.isClosed = true) :
    ∃ event, run.closing = [event] ∧ event.closes run.line := by
  unfold isClosed at closed
  unfold closing
  split at closed
  · exact ⟨_, rfl, rfl⟩
  · exact ⟨_, rfl, trivial⟩
  · cases closed

theorem closing_of_left {run : LineRun σ} (left : run.isClosed = false) : run.closing = [] := by
  unfold isClosed at left
  unfold closing
  split at left
  · cases left
  · cases left
  · simp_all

end LineRun

/-- Lines run one after another, each with the lines that run inside it. -/
inductive LineForest (σ : Type) where
  | none
  | line (run : LineRun σ) (inside after : LineForest σ)

namespace LineForest

def append : LineForest σ → LineForest σ → LineForest σ
  | none, more => more
  | line run inside after, more => line run inside (after.append more)

def events : LineForest σ → List LineEvent
  | none => []
  | line run inside after => .opened run.line :: inside.events ++ (run.closing ++ after.events)

def Closed : LineForest σ → Prop
  | none => True
  | line run inside after => run.isClosed = true ∧ inside.Closed ∧ after.Closed

/-- The lines of a forest have been run one after another, starting with a log: each ended as its run says, and the
lines inside it were run in between. -/
def Ran (env : Env σ) (log : σ → List LineEvent) : List LineEvent → LineForest σ → Prop
  | _, none => True
  | before, line run inside after =>
      log run.started.host = before ++ [.opened run.line] ∧
      Run.attempt (Interpreter.execLine env run.depth run.line) run.started = .ok run.ending run.last ∧
      inside.Ran env log (before ++ [.opened run.line]) ∧
      log run.last.host = before ++ .opened run.line :: inside.events ∧
      after.Ran env log (before ++ .opened run.line :: inside.events ++ run.closing)

theorem events_append (forest more : LineForest σ) : (forest.append more).events = forest.events ++ more.events := by
  induction forest with
  | none => rfl
  | line run inside after _ ih => simp only [append, events, ih, List.cons_append, List.append_assoc]

theorem Ran.append {env : Env σ} {log : σ → List LineEvent} {before : List LineEvent} {forest more : LineForest σ}
    (ran : forest.Ran env log before) (goesOn : more.Ran env log (before ++ forest.events)) :
    (forest.append more).Ran env log before := by
  induction forest generalizing before with
  | none => simpa [LineForest.append, events] using goesOn
  | line run inside after _ ih =>
      obtain ⟨starts, ended, inner, ends, rest⟩ := ran
      refine ⟨starts, ended, inner, ends, ih rest ?_⟩
      simpa only [events, List.cons_append, List.append_assoc] using goesOn

theorem Closed.bracketed {forest : LineForest σ} (closed : forest.Closed) : Bracketed forest.events := by
  induction forest with
  | none => exact .nil
  | line run inside after inner outer =>
      obtain ⟨ends, insideClosed, afterClosed⟩ := closed
      obtain ⟨event, told, closes⟩ := LineRun.closing_of_closed ends
      rw [events, told]
      exact .line (inner insideClosed) closes (outer afterClosed)

theorem excess_events (forest : LineForest σ) :
    0 ≤ LineEvent.excess forest.events ∧ (LineEvent.excess forest.events = 0 → forest.Closed) := by
  induction forest with
  | none => exact ⟨Int.le_refl _, fun _ => trivial⟩
  | line run inside after inner outer =>
      obtain ⟨innerLeast, innerClosed⟩ := inner
      obtain ⟨outerLeast, outerClosed⟩ := outer
      rw [events, LineEvent.excess_opened, LineEvent.excess_append, Closed]
      cases ended : run.isClosed with
      | false =>
          have nothing : LineEvent.excess [] = 0 := rfl
          rw [LineRun.closing_of_left ended, nothing]
          omega
      | true =>
          obtain ⟨event, told, closes⟩ := LineRun.closing_of_closed ended
          have shuts : LineEvent.excess [event] = -1 := by
            rw [LineEvent.excess_cons, LineEvent.weight_of_closes closes]
            rfl
          rw [told, shuts]
          exact ⟨by omega, fun same => ⟨rfl, innerClosed (by omega), outerClosed (by omega)⟩⟩

/-- The events of a forest are bracketed just in case no line is left otherwise. -/
theorem bracketed_iff (forest : LineForest σ) : Bracketed forest.events ↔ forest.Closed :=
  ⟨fun bracketed => forest.excess_events.2 bracketed.balanced, Closed.bracketed⟩

end LineForest

/-- The log is one from before, and what the lines of a forest have added to it. -/
def Logged (env : Env σ) (log : σ → List LineEvent) (before : List LineEvent) (session : Session σ) : Prop :=
  ∃ forest : LineForest σ, forest.Ran env log before ∧ log session.host = before ++ forest.events

namespace Logged

variable {env : Env σ} {log : σ → List LineEvent} {before : List LineEvent} {session after : Session σ}

theorem refl (session : Session σ) : Logged env log (log session.host) session :=
  ⟨.none, trivial, by simp [LineForest.events]⟩

theorem trans (logged : Logged env log before session) (goesOn : Logged env log (log session.host) after) :
    Logged env log before after := by
  obtain ⟨forest, ran, reached⟩ := logged
  obtain ⟨more, rest, reachedToo⟩ := goesOn
  rw [reached] at rest reachedToo
  exact ⟨forest.append more, ran.append rest, by rw [reachedToo, LineForest.events_append, List.append_assoc]⟩

theorem quiet (logged : Logged env log before session) (same : log after.host = log session.host) :
    Logged env log before after := by
  obtain ⟨forest, ran, reached⟩ := logged
  exact ⟨forest, ran, same.trans reached⟩

end Logged

namespace Interpreter

variable (env : Env σ) (log : σ → List LineEvent) [records : env.Records log]

theorem emit_recorded (event : LineEvent) (session : Session σ) :
    ∃ store host, emit env event.name event.args session = .ok () { session with store, host } ∧
      log host = log session.host ++ [event] := by
  obtain ⟨heard, logged⟩ := records.hears event session.host
  exact ⟨_, _, emit_heard heard, logged⟩

variable {env}

theorem heard_of_ok (event : LineEvent) {session after : Session σ}
    (told : emit env event.name event.args session = .ok () after) : log after.host = log session.host ++ [event] := by
  obtain ⟨store, host, heard, logged⟩ := emit_recorded env log event session
  cases heard.symm.trans told
  exact logged

include log records in
theorem not_refused (event : LineEvent) {session after : Session σ} {exit : Exit}
    (told : emit env event.name event.args session = .error exit after) : False := by
  obtain ⟨store, host, heard, _⟩ := emit_recorded env log event session
  cases heard.symm.trans told

/-- A line that is closed adds its closing event to the log, if it has one. -/
theorem Closed.logged {run : LineRun σ} {after : Session σ} (closes : Closed env run.line run.ending run.last after) :
    log after.host = log run.last.host ++ run.closing := by
  obtain ⟨depth, text, started, last, ending⟩ := run
  cases closes with
  | ended told => exact heard_of_ok log (.ended text) told
  | failed told => exact heard_of_ok log (.failed _) told
  | @left exit _ other =>
      cases exit with
      | error error => exact absurd rfl (other error)
      | _ => exact (List.append_nil _).symm
  | unheardEnd told => exact (not_refused log (.ended text) told).elim
  | unheardError told => exact (not_refused log (.failed _) told).elim

end Interpreter

open Run Interpreter

variable {env : Env σ} {log : σ → List LineEvent} [records : env.Records log]

theorem Course.logged {floor : Nat} {before after : Session σ} (course : Course env log floor before after) :
    Logged env log (log before.host) after := by
  induction course with
  | refl floor session => exact .refl session
  | trans _ _ one two => exact one.trans two
  | @move _ before _ _ _ quiet => exact (Logged.refl before).quiet quiet
  | @refused _ text _ _ _ told => exact (not_refused log (.opened text) told).elim
  | @line _ depth text ending before started last after told ran _ closes inner =>
      have starts := heard_of_ok log (.opened text) told
      obtain ⟨inside, insideRan, reached⟩ := inner
      rw [starts] at insideRan reached
      let run : LineRun σ := ⟨depth, text, started, last, ending⟩
      have ends := Closed.logged log (show Closed env run.line run.ending run.last after from closes)
      refine ⟨.line run inside .none, ⟨starts, ran, insideRan, ?_, trivial⟩, ?_⟩
      · rw [reached, List.append_assoc, List.singleton_append]
      · rw [ends, reached]
        simp [LineForest.events, run]
  | file _ _ _ opens _ _ _ closes inner => exact (opens ▸ inner).quiet closes

instance (before : List LineEvent) : Session.Stable (Logged env log before) where
  within logged kept := logged.quiet (congrArg log kept.host)

instance (before : List LineEvent) : env.Insulates (Logged env log before) where
  answers logged asked := logged.quiet (records.answers asked)

theorem Session.modifyRoot_host (session : Session σ) (f : Frame → Frame) :
    (session.modifyRoot f).host = session.host := by
  unfold Session.modifyRoot
  split <;> rfl

omit records in
theorem Logged.persists (before : List LineEvent) : Persists env (Logged env log before) where
  redepth _ _ logged := logged.quiet rfl
  counts session logged := logged.quiet (congrArg log (session.modifyRoot_host _))
  stops session code logged := Session.Stable.within logged (session.stop_local code)
  reports error := Report.add_confined env error
  warns text := Keeps.report text

namespace Interpreter

/-- The events of lines are bracketed, unless a line is left by a return, by the end of the session or by a fault, be it
one that another error replaces later on. Where listeners do not fail and the host keeps a log of what they are told,
requests of any kind add to the log what a forest of lines says: each line was run from where the log had its start, and
is closed by an event that tells how it ended, after those of the lines inside it. -/
theorem lines_bracketed (env : Env σ) (log : σ → List LineEvent) [env.Records log] (depth : Nat)
    (requests : List Request) (start : Session σ) :
    ∃ forest : LineForest σ, forest.Ran env log (log start.host) ∧
      log ((answers env depth requests).leaves start).host = log start.host ++ forest.events ∧
      (Bracketed forest.events ↔ forest.Closed) := by
  have lasting := Lasting.always env log
  have lines := execLine_tracks env log lasting depth
  have goesOn {program : Run σ Unit} (tracks : Tracks env log (fun _ => True) program program) :
      Follows (Logged env log (log start.host)) program program := fun session logged =>
    (tracks 0 (.bottom session) trivial).mono fun _ course => logged.trans course.logged
  have persists : Persists env (Logged env log (log start.host)) := Logged.persists _
  have follows := persists.answersFollow
    (fun text => goesOn (runLine_tracks lasting lines text))
    (fun target => goesOn (parseFile_tracks lasting lines target)) requests
  obtain ⟨_, kept⟩ := follows (.refl start)
  rw [answersBy_execLine] at kept
  obtain ⟨forest, ran, reached⟩ := Meets.leaves kept.meets
  exact ⟨forest, ran, reached, forest.bracketed_iff⟩

end Interpreter

/-- A host that does nothing but keep the log. Its one loop source answers by the verb, and its pauses may fail. -/
def LineEvent.recording (answer : SourceVerb → Except Raised Answer) (pauses : Int → Except Fault Unit) :
    Env (List LineEvent) where
  services :=
    { sources := [("ext", fun verb _ _ log => ({ result := answer verb }, log))]
      hooks :=
        [{ event := "before_line", handler := fun args log => ({ result := .ok () }, log ++ args.map .opened) },
          { event := "after_line", handler := fun args log => ({ result := .ok () }, log ++ args.map .ended) },
          { event := "on_error", handler := fun args log => ({ result := .ok () }, log ++ args.map .failed) }] }
  wait := some fun time => MonadExcept.ofExcept (pauses time)

instance (answer : SourceVerb → Except Raised Answer) (pauses : Int → Except Fault Unit) :
    (LineEvent.recording answer pauses).Records id where
  answers {before _} asked := by
    cases asked with
    | resolve _ | call _ _ | dispatch _ | clock => rfl
    | source verb qualifier type name =>
        by_cases known : type = ("ext" : Text)
        · subst known
          rfl
        · simp only [LineEvent.recording, Services.askSource, List.lookup_cons, beq_eq_false_iff_ne.mpr known]
          rfl
    | wait given milliseconds =>
        cases given
        dsimp only [hostAfter]
        cases pauses milliseconds <;> rfl
  hears event log := by cases event <;> exact ⟨rfl, rfl⟩

namespace Interpreter

/-- A loop runs a script file, and a command that nobody knows fails there. -/
theorem nestedLines_bracketed :
    let env := LineEvent.recording (fun _ => .ok .noMore) fun _ => .ok ()
    let files : FileTree := { files := [(["f"], "alias a=b\nnonsense\n".toUTF8.toList)] }
    let requests : List Request := [.line "foreach('a',i)", .line "parse f", .line "endfor"]
    let loop : List LineEvent :=
      [.opened "foreach('a',i)", .ended "foreach('a',i)", .opened "parse f", .ended "parse f", .opened "endfor",
        .opened "parse f", .opened "alias a=b", .ended "alias a=b", .opened "nonsense", .failed "CommandNotFoundError",
        .ended "parse f", .ended "endfor"]
    ((answers env 4 requests).leaves (Session.start {} [] files)).host = loop ∧
      ∃ forest : LineForest (List LineEvent), forest.Ran env id [] ∧ forest.events = loop ∧ forest.Closed := by
  intro env files requests loop
  obtain ⟨forest, ran, reached, bracketed⟩ := lines_bracketed env id 4 requests (Session.start {} [] files)
  have logged : ((answers env 4 requests).leaves (Session.start {} [] files)).host = loop := by decide +kernel
  have events : forest.events = loop := (logged.symm.trans reached).symm
  refine ⟨logged, forest, ran, events, bracketed.mp (events ▸ ?_)⟩
  have one (line : Text) {after : List LineEvent} (goesOn : Bracketed after) :
      Bracketed (.opened line :: .ended line :: after) := .line .nil rfl goesOn
  have fails : Bracketed [.opened "nonsense", .failed "CommandNotFoundError"] := .line .nil trivial .nil
  have file : Bracketed [.opened "parse f", .opened "alias a=b", .ended "alias a=b", .opened "nonsense",
      .failed "CommandNotFoundError", .ended "parse f"] := .line (one "alias a=b" fails) rfl .nil
  exact one _ (one _ (.line file rfl .nil))

/-- A pause fails in the body of a loop, and the source of the loop fails as it is stopped: its failure takes
the place of the fault, which leaves nothing but the line of the pause. -/
theorem replacedFault_unbracketed :
    let answer : SourceVerb → Except Raised Answer
      | .start => .ok .more
      | .next => .ok .noMore
      | .stop => .error (.failure "stop broke")
    let pauses (time : Int) : Except Fault Unit := if time < 0 then .error .negativeSleep else .ok ()
    let requests : List Request := [.line "foreach(ext,i)", .line "wait -1", .line "endfor"]
    ∃ after, answers (LineEvent.recording answer pauses) 2 requests (Session.start {} []) =
        .ok [.ok (), .ok (), .ok ()] after ∧ ¬Bracketed after.host := by
  intro answer pauses requests
  have unbalanced : LineEvent.excess
      ((answers (LineEvent.recording answer pauses) 2 requests).leaves (Session.start {} [])).host ≠ 0 := by
    decide +kernel
  exact ⟨_, Run.answer?_eq_some (by decide +kernel), fun bracketed => unbalanced bracketed.balanced⟩

end Interpreter

end CommandScript
