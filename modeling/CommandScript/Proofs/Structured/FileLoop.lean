import CommandScript.Proofs.Structured.Execution

/-! Scripts as files. The lines of a file are run one after another until one fails or returns; for the
lines of a tree, that is to run the tree. -/

namespace CommandScript

variable {σ : Type}

open Structured

namespace Interpreter

/-- Runs the logical lines of a script until one of them ends it, and tells whether none did. -/
def runLines (env : Env σ) (exec : Text → Run σ Unit) : List BodyLine → Run σ Bool
  | [] => return true
  | line :: rest => do
    if ← runScriptLine env exec line.text line.number then runLines env exec rest else return false

/-- What is made of the end of a line, or of a whole script. -/
def conclude (env : Env σ) : Except Exit Unit → Run σ Bool
  | .ok () => return true
  | .error .returned => do
    setConditions []
    Flow.abandonAll env
    return false
  | .error (.error error) => do
    Report.add env error
    return false
  | .error exit => throw exit

theorem runScriptLine_eq (env : Env σ) (exec : Text → Run σ Unit) (text : Text) (number : Nat) :
    runScriptLine env exec text number = (do
      Run.modifyFrame ({ · with line := number })
      conclude env (← Run.attempt (runLine env exec text))) := by
  unfold runScriptLine
  refine bind_congr fun _ => bind_congr fun result => ?_
  match result with
  | .ok () => rfl
  | .error .returned => rfl
  | .error (.error error) => rfl
  | .error (.stopped code) => rfl
  | .error (.fault fault) => rfl
  | .error .exhausted => rfl

theorem conclude_error (env : Env σ) (exit : Exit) (next : Run σ Bool) :
    (do if ← conclude env (.error exit) then next else return false) = conclude env (.error exit) := by
  cases exit with
  | error error => simp [conclude]
  | returned => simp [conclude]
  | stopped code => rfl
  | fault fault => rfl
  | exhausted => rfl

theorem runLines_eq (env : Env σ) (depth : Nat) (lines : List BodyLine) :
    runLines env (execLine env depth) lines = (do conclude env (← Run.attempt (flat env depth lines))) := by
  induction lines with
  | nil => rfl
  | cons line rest ih =>
      funext session
      let start := { session with frame := { session.frame with line := line.number } }
      let runs := runLine env (execLine env depth) line.text
      have byLine : runLines env (execLine env depth) (line :: rest) session =
          (do
            if ← conclude env (← Run.attempt runs) then runLines env (execLine env depth) rest
            else return false : Run σ Bool) start := by
        simp only [runLines, runScriptLine_eq, bind_assoc]
        rfl
      have whole : (do conclude env (← Run.attempt (flat env depth (line :: rest))) : Run σ Bool) session =
          match runs start with
          | .ok () after => (do conclude env (← Run.attempt (flat env depth rest)) : Run σ Bool) after
          | .error exit after => conclude env (.error exit) after := by
        change EStateM.bind (Run.attempt (EStateM.bind runs fun _ => flat env depth rest)) (conclude env) start = _
        unfold EStateM.bind Run.attempt
        dsimp only
        cases runs start with
        | ok value after => rfl
        | error exit after => rfl
      rw [byLine, whole, ih]
      change EStateM.bind (Run.attempt runs) _ start = _
      unfold EStateM.bind Run.attempt
      cases runs start with
      | ok value after => rfl
      | error exit after => exact congrFun (conclude_error env exit _) after

end Interpreter

/-- What the frame of a file holds when no loop is open and no alias is defined. -/
def Control.Bare (control : Control) : Prop := control.aliases = [] ∧ control.loops = []

theorem conclude_simulates {env : Env σ} {control after : Control} (bare : control.Bare) (exit : Exit)
    (broken : control.Breaks after) :
    Simulates after (Interpreter.conclude env (.error exit)) (finish env (.error exit))
      (fun done finished last => done = false ∧ finished = false ∧ last.Bare) Control.Bare := by
  have stays : after.Bare := ⟨broken.aliases.trans bare.1, broken.loops.trans bare.2⟩
  cases exit with
  | error error =>
      have told := Simulates.same (Report.add_respects (Session.placed_traceable after) env error)
      refine Simulates.bind (told.weaken (fun _ _ _ ended => ended.2) fun _ same => same ▸ stays)
        fun _ _ last same => ?_
      exact Simulates.pure ⟨rfl, rfl, same ▸ stays⟩
  | returned =>
      refine Simulates.silent { after with conditions := [] } (fun _ => rfl) ?_
      have nothing (session : Session σ) :
          Flow.abandonAll env (session.placed { after with conditions := [] }) =
            .ok () (session.placed { after with conditions := [] }) := by
        change Flow.abandonLoops env after.loops.length (session.placed { after with conditions := [] }) = _
        rw [stays.2]
        rfl
      exact Simulates.silent { after with conditions := [] } nothing (Simulates.pure ⟨rfl, rfl, stays⟩)
  | stopped code => exact Simulates.throw stays
  | fault fault => exact Simulates.throw stays
  | exhausted => exact Simulates.throw stays

/-- Flat execution is structured execution. The lines of a script, run one after another by a frame
without open blocks and aliases, have the effects of the script as a tree: the same exit, the same
session and the same requests to the host in the same order. Afterwards no loop is open, and no chain if
the script came to its end. -/
theorem Script.runLines_agree (env : Env σ) (quiet : Quiet env) (script : Script false) {depth : Nat}
    (shallow : script.nesting ≤ depth) (session : Session σ) (noAliases : session.frame.aliases = [])
    (noLoops : session.frame.loops = []) (noConditions : session.frame.conditions = []) :
    Agree
      (fun done finished after => done = finished ∧ after.Bare ∧ (done = true → after.conditions = []))
      Control.Bare
      (Interpreter.runLines env (Interpreter.execLine env (depth + 1)) script.lines session)
      (script.run env session) := by
  have bare : session.control.Bare := ⟨noAliases, noLoops⟩
  have live : session.control.Live false := by
    refine ⟨⟨noAliases, ?_⟩, ?_, ?_, nofun⟩
    · rw [bare.2]
      nofun
    · rw [show session.control.conditions = [] from noConditions]
      rfl
    · rw [bare.2]
      nofun
  have runs : Simulates session.control
      (do Interpreter.conclude env (← Run.attempt (flat env (depth + 1) script.lines)))
      (do finish env (← Run.attempt (script.exec env)))
      (fun done finished after => done = finished ∧ after.Bare ∧ (done = true → after.conditions = []))
      Control.Bare := by
    refine Simulates.bind (script.simulates quiet shallow live).attempt fun result other after how => ?_
    rcases how with ⟨_, left, rfl, rfl, reached⟩ | ⟨exit, rfl, rfl, broken⟩
    · cases left with
      | true => exact absurd bare.2 (reached.inside rfl)
      | false =>
          refine Simulates.pure ⟨rfl, ⟨reached.aliases.trans bare.1, ?_⟩,
            fun _ => reached.conditions.trans noConditions⟩
          exact Eq.trans reached.loops bare.2
    · refine (conclude_simulates bare exit broken).weaken (fun done finished last ended => ?_) fun _ bare => bare
      obtain ⟨rfl, rfl, bare⟩ := ended
      exact ⟨rfl, bare, nofun⟩
  rw [Interpreter.runLines_eq]
  exact runs session

def sumUntil : Script false :=
  .plain ⟨.simple "s = 0" 1 (by decide +kernel), by decide +kernel, by decide +kernel⟩ <|
  .loop ⟨.simple "foreach(1,9,k)" 2 (by decide +kernel), by decide +kernel⟩
    (.choice ⟨.simple "if(k > 3)" 3 (by decide +kernel), by decide +kernel, "k > 3", by rfl⟩
      (.leave ⟨.simple "break" 4 (by decide +kernel), by decide +kernel, by decide +kernel⟩ .done)
      (.otherwise ⟨.simple "else" 5 (by decide +kernel), by decide +kernel⟩
        (.plain ⟨.simple "s = s + k" 6 (by decide +kernel), by decide +kernel, by decide +kernel⟩ .done)
        ⟨.simple "endif" 7 (by decide +kernel), by decide +kernel⟩)
      .done)
    ⟨.simple "endfor" 8 (by decide +kernel), by decide +kernel⟩
    .done

theorem sumUntil_runLines_agree :
    sumUntil.nesting ≤ 1 ∧
      Agree
        (fun done finished after => done = finished ∧ after.Bare ∧ (done = true → after.conditions = []))
        Control.Bare
        (Interpreter.runLines {} (Interpreter.execLine {} 2) sumUntil.lines (Session.start {} ()))
        (sumUntil.run {} (Session.start {} ())) :=
  ⟨by decide, sumUntil.runLines_agree {} nofun (by decide) _ rfl rfl rfl⟩

/-- An if without a condition is refused also in a branch that is passed over, and the file ends there. Hence
the lines of a tree have their conditions. -/
theorem missingCondition_refused :
    let lines : List BodyLine := [⟨"if(0)", 1⟩, ⟨"if()", 2⟩, ⟨"endif", 3⟩, ⟨"endif", 4⟩, ⟨"print x", 5⟩]
    let start : Session Unit := (Session.start {} ()).put "x" "1"
    ∃ after, Interpreter.runLines {} (Interpreter.execLine {} 2) lines start = .ok false after ∧
      after.output = #[] ∧ after.frame.line = 2 := by
  intro lines start
  exact ⟨_, Run.answer?_eq_some (by decide +kernel), by decide +kernel, by decide +kernel⟩

def Lines.delivered (text : Text) (number : Nat) : List BodyLine :=
  (Lines.logical (Lines.deliver text number)).map fun (text, number) => ⟨text, number⟩

/-- What a reader gives next, as long as its file has the same contents. -/
def Reader.Gives (bytes : List UInt8) (reader : Reader) (raw : Option Text) (after : Reader) : Prop :=
  after.place = reader.place ∧
    ∀ tree : FileTree, tree.contents reader.place = bytes → reader.nextLine tree = .ok (raw, after)

/-- The logical lines that a reader gives in a number of steps; `part` is the one being put together. -/
inductive Reader.Supplies (bytes : List UInt8) :
    Nat → Reader → Option Lines.Open → Nat → List BodyLine → Prop
  | ended {reader after : Reader} {number : Nat} : reader.Gives bytes none after →
      Supplies bytes 1 reader none number []
  | last {steps : Nat} {reader after : Reader} {part : Lines.Open} {number : Nat} {rest : List BodyLine} :
      reader.Gives bytes none after → Supplies bytes steps after none number rest →
      Supplies bytes (steps + 1) reader (some part) number (Lines.delivered part.text number ++ rest)
  | joined {steps : Nat} {reader after : Reader} {part : Option Lines.Open} {number : Nat} {raw : Text}
      {whole : Lines.Open} {lines : List BodyLine} : reader.Gives bytes (some raw) after →
      Lines.extend part raw = (whole, true, false) → Supplies bytes steps after (some whole) (number + 1) lines →
      Supplies bytes (steps + 1) reader part number lines
  | line {steps : Nat} {reader after : Reader} {part : Option Lines.Open} {number : Nat} {raw : Text}
      {whole : Lines.Open} {rest : List BodyLine} : reader.Gives bytes (some raw) after →
      Lines.extend part raw = (whole, false, false) → Supplies bytes steps after none (number + 1) rest →
      Supplies bytes (steps + 1) reader part number (Lines.delivered whole.text (number + 1) ++ rest)

namespace Interpreter

variable {env : Env σ} {exec : Text → Run σ Unit}

theorem runLines_append (lines more : List BodyLine) :
    runLines env exec (lines ++ more) =
      (do if ← runLines env exec lines then runLines env exec more else return false) := by
  induction lines with
  | nil => simp [runLines]
  | cons line rest ih =>
      simp only [List.cons_append, runLines, ih, bind_assoc]
      refine bind_congr fun goesOn => ?_
      cases goesOn <;> simp

theorem runFolded_eq (text : Text) (number : Nat) :
    runFolded env exec text number = runLines env exec (Lines.delivered text number) := by
  unfold runFolded Lines.delivered Lines.deliver
  cases Lines.kept? text with
  | none => rfl
  | some line =>
    have same (program : Run σ Bool) : (do if ← program then return true else return false) = program := by
      have kept : (fun goesOn : Bool => if goesOn then pure true else pure false) = (pure : Bool → Run σ Bool) := by
        funext goesOn
        cases goesOn <;> rfl
      rw [kept, bind_pure]
    simp only [Option.toList_some, Lines.logical, List.filterMap_cons, List.filterMap_nil, List.map_cons, List.map_nil,
      runLines]
    exact (same _).symm

/-- The lines leave the contents of the script's own file alone. -/
def Keeps (env : Env σ) (exec : Text → Run σ Unit) (place : Location) (bytes : List UInt8) (lines : List BodyLine) :
    Prop :=
  ∀ line ∈ lines, ∀ session goesOn after, session.files.contents place = bytes →
    runScriptLine env exec line.text line.number session = .ok goesOn after → after.files.contents place = bytes

theorem Keeps.runLines {place : Location} {bytes : List UInt8} {lines : List BodyLine}
    (keeps : Keeps env exec place bytes lines) {session after : Session σ} {goesOn : Bool}
    (before : session.files.contents place = bytes) (ended : runLines env exec lines session = .ok goesOn after) :
    after.files.contents place = bytes := by
  induction lines generalizing session with
  | nil =>
      cases ended
      exact before
  | cons line rest ih =>
      change EStateM.bind (runScriptLine env exec line.text line.number) _ session = _ at ended
      unfold EStateM.bind at ended
      split at ended
      · rename_i goesOn middle first
        have between := keeps line (by simp) session goesOn middle before first
        cases goesOn with
        | true => exact ih (fun other member => keeps other (by simp [member])) between ended
        | false =>
            cases ended
            exact between
      · cases ended

theorem runScript_succ {bytes : List UInt8} {reader after : Reader} {raw : Option Text} (bound : Nat)
    (part : Option Lines.Open) (number : Nat) {session : Session σ}
    (contents : session.files.contents reader.place = bytes) : reader.Gives bytes raw after →
    runScript env exec (bound + 1) reader part number session =
      (match raw, part with
      | none, none => return
      | none, some part => do
        if ← runFolded env exec part.text number then runScript env exec bound after none number
      | some raw, part => do
        let (part, follows, warns) := Lines.extend part raw
        if warns then Run.report Lines.warningText
        if follows then runScript env exec bound after (some part) (number + 1)
        else if ← runFolded env exec part.text (number + 1) then
          runScript env exec bound after none (number + 1) : Run σ Unit) session := by
  intro gives
  change EStateM.bind (Run.ofFault (reader.nextLine session.files)) _ session = _
  rw [gives.2 _ contents]
  rfl

theorem runFolded_then {place : Location} {bytes : List UInt8} {text : Text} {number : Nat} {rest : List BodyLine}
    {next : Run σ Unit} (keeps : Keeps env exec place bytes (Lines.delivered text number ++ rest))
    (goesOn : ∀ session : Session σ, session.files.contents place = bytes →
      next session = (do let _ ← Interpreter.runLines env exec rest) session)
    {session : Session σ} (contents : session.files.contents place = bytes) :
    (do if ← runFolded env exec text number then next : Run σ Unit) session =
      (do let _ ← Interpreter.runLines env exec (Lines.delivered text number ++ rest)) session := by
  have first : Keeps env exec place bytes (Lines.delivered text number) :=
    fun line member => keeps line (by simp [member])
  rw [runFolded_eq, runLines_append, bind_assoc]
  change EStateM.bind (Interpreter.runLines env exec (Lines.delivered text number)) _ session =
    EStateM.bind (Interpreter.runLines env exec (Lines.delivered text number)) _ session
  unfold EStateM.bind
  cases ended : Interpreter.runLines env exec (Lines.delivered text number) session with
  | error exit after => rfl
  | ok going after =>
      cases going with
      | true => exact goesOn after (first.runLines contents ended)
      | false => rfl

/-- A file whose lines leave it alone is run line by line. -/
theorem runScript_eq_runLines {bytes : List UInt8} {steps : Nat} {reader : Reader} {part : Option Lines.Open}
    {number : Nat} {lines : List BodyLine} (supplies : reader.Supplies bytes steps part number lines)
    (keeps : Keeps env exec reader.place bytes lines) {bound : Nat} (enough : steps ≤ bound) {session : Session σ}
    (contents : session.files.contents reader.place = bytes) :
    runScript env exec bound reader part number session =
      (do let _ ← Interpreter.runLines env exec lines) session := by
  induction supplies generalizing bound session with
  | ended gives =>
      obtain ⟨bound, rfl⟩ : ∃ less, bound = less + 1 := ⟨bound - 1, by omega⟩
      exact runScript_succ bound none _ contents gives
  | last gives supplies ih =>
      obtain ⟨bound, rfl⟩ : ∃ less, bound = less + 1 := ⟨bound - 1, by omega⟩
      rw [runScript_succ bound _ _ contents gives]
      refine runFolded_then keeps (fun session contents => ?_) contents
      rw [← gives.1] at keeps contents
      exact ih (fun line member => keeps line (by simp [member])) (by omega) contents
  | joined gives extended supplies ih =>
      obtain ⟨bound, rfl⟩ : ∃ less, bound = less + 1 := ⟨bound - 1, by omega⟩
      rw [runScript_succ bound _ _ contents gives]
      rw [← gives.1] at keeps contents
      simp only [extended]
      exact ih keeps (by omega) contents
  | line gives extended supplies ih =>
      obtain ⟨bound, rfl⟩ : ∃ less, bound = less + 1 := ⟨bound - 1, by omega⟩
      rw [runScript_succ bound _ _ contents gives]
      simp only [extended]
      refine runFolded_then keeps (fun session contents => ?_) contents
      rw [← gives.1] at keeps contents
      exact ih (fun line member => keeps line (by simp [member])) (by omega) contents

end Interpreter

end CommandScript
