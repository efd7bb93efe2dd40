import CommandScript.Proofs.Integers.Programs
import CommandScript.Proofs.Literals.Quoted
import CommandScript.Proofs.Scoping.Watching

/-!
A quoted text goes through a session unchanged. The line that stores it reaches the store through the
statement splitter, the aliases and the conditional stack; a variable that holds it is printed as the text
between the quotes, and a copy of the variable holds the same text.
-/

namespace CommandScript

variable {σ : Type}

def lineVariables : List Text := ["x", "y"]

/-- Every event is heard without a failure, and the listeners set other variables only. -/
structure Services.Hears (services : Services σ) : Prop where
  heard (event : Text) (args : List Text) (host : σ) : (services.emit event args host).1.result = .ok ()
  spares (event : Text) (args : List Text) (host : σ) :
    ∀ write ∈ (services.emit event args host).1.writes, write.1 ∉ lineVariables

namespace Store

variable {store other : Store}

/-- The variables of the lines hold the same and are written to the same place. -/
structure Alike (store other : Store) : Prop where
  redirected : store.redirected = other.redirected
  scopes : store.scopes.length = other.scopes.length
  lookup (name : Text) : name ∈ lineVariables → store.lookup name = other.lookup name
  globals (name : Text) : name ∈ lineVariables → store.globals.has name = other.globals.has name

namespace Alike

theorem refl (store : Store) : store.Alike store := ⟨rfl, rfl, fun _ _ => rfl, fun _ _ => rfl⟩

theorem trans {last : Store} (first : store.Alike other) (second : other.Alike last) : store.Alike last where
  redirected := first.redirected.trans second.redirected
  scopes := first.scopes.trans second.scopes
  lookup name member := (first.lookup name member).trans (second.lookup name member)
  globals name member := (first.globals name member).trans (second.globals name member)

theorem setAll (direct : store.redirected = false) {writes : List (Text × Text)}
    (spares : ∀ write ∈ writes, write.1 ∉ lineVariables) : (store.setAll writes).Alike store := by
  induction writes generalizing store with
  | nil => exact refl store
  | cons write rest ih =>
      have apart (name : Text) (member : name ∈ lineVariables) : name ≠ write.1 := fun same =>
        spares write (List.mem_cons_self ..) (same ▸ member)
      refine (ih (set_direct direct write.1 write.2) fun other member =>
        spares other (List.mem_cons_of_mem _ member)).trans ?_
      refine ⟨(set_direct direct _ _).trans direct.symm, set_scopes_length .., fun name member => ?_,
        fun name member => ?_⟩
      · rw [lookup_set direct, if_neg fun seen => apart name member seen.1]
      · rw [globals_set direct, decide_eq_false (apart name member), Bool.false_and, Bool.or_false]

theorem set (alike : store.Alike other) (direct : other.redirected = false) {name : Text}
    (member : name ∈ lineVariables) (unshared : other.globals.has name = false) (value : Text) :
    (store.set name value).Alike (other.set name value) := by
  have straight : store.redirected = false := alike.redirected.trans direct
  have seen : ¬other.Hides name := fun hides => by simp [hides.2] at unshared
  have seen' : ¬store.Hides name := fun hides => by
    rw [← alike.globals name member] at unshared
    simp [hides.2] at unshared
  have same : store.scopes.isEmpty = other.scopes.isEmpty := by
    rw [Bool.eq_iff_iff, List.isEmpty_iff_length_eq_zero, List.isEmpty_iff_length_eq_zero, alike.scopes]
  refine ⟨(set_direct straight _ _).trans (set_direct direct _ _).symm, ?_, fun one inside => ?_, fun one inside => ?_⟩
  · rw [set_scopes_length, set_scopes_length, alike.scopes]
  · simp only [lookup_set straight, lookup_set direct, seen, seen', alike.lookup one inside]
  · rw [globals_set straight, globals_set direct, alike.globals one inside, same]

end Alike

end Store

namespace Session

def within (session : Session σ) (line : Nat) (statement : Text) (callers : List Frame) (depth : Nat)
    (store : Store) (host : σ) : Session σ :=
  { session with frame := { session.frame with line, statement }, callers, depth, store, host }

/-- Only the line that was run last, the host and other variables than those of the lines are other ones. -/
def Moved (before after : Session σ) : Prop :=
  ∃ line statement callers store host, store.Alike before.store ∧
    after = before.within line statement callers 0 store host

theorem modifyRoot_within (session : Session σ) (text : Text) (depth : Nat) :
    ∃ line callers, ∀ store host,
      { session.modifyRoot (fun root => { root with line := root.line + 1 }) with
        frame :=
          { (session.modifyRoot fun root => { root with line := root.line + 1 }).frame with statement := text }
        depth, store, host } = session.within line text callers depth store host := by
  unfold modifyRoot
  split
  · exact ⟨session.frame.line + 1, session.callers, fun _ _ => rfl⟩
  · exact ⟨session.frame.line, _, fun _ _ => rfl⟩

/-- Between two lines, where the next one is run: nothing is skipped or collected. -/
structure Executes (session : Session σ) : Prop where
  running : session.stopped = false
  between : session.depth = 0
  notSkipping : session.frame.conditions.head?.any Branch.isSkipping = false
  notCollecting : session.frame.loops.head?.any Loop.isCollecting = false
  notLeaving : session.frame.loops.head?.any (·.mode = .leaving) = false
  direct : session.store.redirected = false

theorem write_within {session written : Session σ} {text : Text} (writes : session.write text = .ok written)
    (line : Nat) (statement : Text) (callers : List Frame) (depth : Nat) (store : Store) (host : σ) :
    (session.within line statement callers depth store host).write text =
      .ok (written.within line statement callers depth store host) := by
  unfold write at writes ⊢
  simp only [within]
  cases opened : session.printFile with
  | none =>
      rw [opened] at writes
      cases writes
      rfl
  | some handle =>
      rw [opened] at writes
      cases encoded : encodeWhole text with
      | error fault =>
          rw [encoded] at writes
          cases writes
      | ok bytes =>
          rw [encoded] at writes
          cases writes
          rfl

end Session

namespace Interpreter

variable {env : Env σ}

def told (env : Env σ) (event : Text) (args : List Text) (session : Session σ) : Session σ :=
  { session with
    store := session.store.setAll (env.services.emit event args session.host).1.writes
    host := (env.services.emit event args session.host).2 }

theorem runLine_heard (heard : env.services.Hears) {exec : Text → Run σ Unit} {text : Text} {session after : Session σ}
    (runs : exec text (told env "before_line" [text]
      { session with frame := { session.frame with statement := text } }) =
      .ok () after) :
    runLine env exec text session = .ok () (told env "after_line" [text] after) := by
  simp only [runLine, Run.modifyFrame, EStateM.modify_apply, bind, EStateM.bind, emit_heard (heard.heard _ _ _),
    Run.onError, Run.attempt]
  unfold told at runs
  rw [runs]
  rfl

theorem told_alike (heard : env.services.Hears) (event : Text) (args : List Text) {session : Session σ}
    (direct : session.store.redirected = false) : (told env event args session).store.Alike session.store :=
  .setAll direct (heard.spares event args session.host)

theorem parseLine_heard (heard : env.services.Hears) {depth : Nat} {text : Text} {session goal : Session σ}
    (executes : session.Executes) (stays : goal.store.redirected = false)
    (runs : ∀ line callers store host, store.Alike session.store → ∃ after, after.Alike goal.store ∧
      execLine env depth text (session.within line text callers 8 store host) =
        .ok () (goal.within line text callers 8 after host)) :
    ∃ after, parseLine env depth text session = .ok true after ∧ goal.Moved after := by
  generalize started : session.modifyRoot (fun root => { root with line := root.line + 1 }) = counted
  have kept : counted.depth = 0 ∧ counted.store = session.store ∧ counted.host = session.host := by
    subst started
    unfold Session.modifyRoot
    split <;> exact ⟨executes.between, rfl, rfl⟩
  obtain ⟨line, callers, same⟩ : ∃ line callers, ∀ store host, { counted with
      frame := { counted.frame with statement := text }, depth := 8, store, host } =
        session.within line text callers 8 store host := by
    subst started
    exact session.modifyRoot_within text 8
  let marked := { counted with frame := { counted.frame with statement := text }, depth := 8 }
  let entered := told env "before_line" [text] marked
  obtain ⟨store, alike, ran⟩ := runs line callers entered.store entered.host
    (kept.2.1 ▸ told_alike heard _ _ (kept.2.1 ▸ executes.direct : counted.store.redirected = false))
  rw [← same] at ran
  have heardLine := @runLine_heard σ env heard (execLine env depth) text { counted with depth := 8 } _ ran
  have deeper := Run.deeper_eq 8 (runLine env (execLine env depth) text) counted
  rw [if_neg (by rw [kept.1]; decide), kept.1, heardLine] at deeper
  let left := told env "after_line" [text] (goal.within line text callers 8 store entered.host)
  have still : left.store.Alike store := told_alike heard _ _ (alike.redirected.trans stays)
  refine ⟨goal.within line text callers 0 left.store left.host, ?_, line, text, callers, _, _, still.trans alike, rfl⟩
  simp only [parseLine, bind, EStateM.bind, EStateM.get_apply, executes.running, Bool.false_eq_true, if_false,
    EStateM.modify_apply, started, Run.attempt, deeper]
  rfl

end Interpreter

namespace Flow

variable {c : CodePoint} (rest : Text)

/-- Letters of ASCII that no word of a block starts with. -/
def isApart (c : CodePoint) : Bool := c = 's' || c = 'p'

theorem lower_apart (apart : isApart c = true) : ∃ more, Text.lower (c :: rest) = c :: more := by
  have first : c = 's' ∨ c = 'p' := by simpa [isApart] using apart
  rcases first with rfl | rfl <;> exact ⟨_, rfl⟩

theorem lower_apart_ne (apart : isApart c = true) {word : Text} (other : word.head?.any isApart = false) :
    Text.lower (c :: rest) ≠ word := by
  obtain ⟨more, lowered⟩ := lower_apart rest apart
  rintro rfl
  simp [lowered, apart] at other

theorem isWordLine_apart (apart : isApart c = true) {word : Text} (filled : word ≠ [])
    (other : word.head?.any isApart = false) : isWordLine word (c :: rest) = false := by
  obtain ⟨more, lowered⟩ := lower_apart rest apart
  obtain ⟨letter, tail, rfl⟩ := List.exists_cons_of_ne_nil filled
  have differ : letter ≠ c := by
    rintro rfl
    simp [apart] at other
  simp [isWordLine, lowered, Text.startsWith, List.isPrefixOf, differ, Ne.symm differ]

theorem conditionWord?_apart (apart : isApart c = true) : conditionWord? (c :: rest) = none := by
  have first : c = 's' ∨ c = 'p' := by simpa [isApart] using apart
  rcases first with rfl | rfl <;> rfl

theorem judge_apart (apart : isApart c = true) {conditions : List Branch}
    (executing : conditions.head?.any Branch.isSkipping = false) :
    judge false conditions (c :: rest) = .runs := by
  have noElse : Text.lower (c :: rest) ≠ "else" := lower_apart_ne rest apart (by decide)
  have noEndif : isEndif (c :: rest) = false := isWordLine_apart rest apart (by decide) (by decide)
  have noElseif : ¬(Text.lower (c :: rest) = "elseif" ∨ Text.lower (c :: rest) = "else if") :=
    not_or.mpr ⟨lower_apart_ne rest apart (by decide), lower_apart_ne rest apart (by decide)⟩
  simp only [judge, if_neg noElse, noEndif, Bool.false_eq_true, if_false, if_neg noElseif,
    conditionWord?_apart rest apart, executing]

theorem isForeach_apart (apart : isApart c = true) : isForeach (c :: rest) = false := by
  have first : c = 's' ∨ c = 'p' := by simpa [isApart] using apart
  have visible : Text.isBlank c = false := by rcases first with rfl | rfl <;> decide
  have kept : ((c :: rest).filter fun c => !Text.isBlank c).take 8 =
      c :: (rest.filter fun c => !Text.isBlank c).take 7 := by
    rw [List.filter_cons_of_pos (by simp [visible]), List.take_succ_cons]
  have other : Text.lower (c :: (rest.filter fun c => !Text.isBlank c).take 7) ≠ "foreach(" :=
    lower_apart_ne _ apart (by decide)
  rw [← kept] at other
  exact decide_eq_false other

end Flow

/-- A line that is one statement, of which the first word is a command. -/
structure Calls (line : Text) (command : Command) (rest : Text) : Prop where
  single : Text.splitStatements line = .ok [line]
  noComment : Text.stripComment line = line
  trimmed : Text.trim line = line
  balanced : Text.checkBalance line = .ok ()
  apart : line.head?.any Flow.isApart = true
  word : Command.of? (Text.cutOrAll ' ' line).1 = some command
  arguments : Text.trim (Text.cutOrAll ' ' line).2 = rest

namespace Calls

variable {line rest : Text} {command : Command} {env : Env σ} {session : Session σ}

theorem runStatement_eq (calls : Calls line command rest) (env : Env σ) (exec : Text → Run σ Unit) :
    Interpreter.runStatement env exec line = Interpreter.runCommand env exec command rest := by
  obtain ⟨-, -, -, -, apart, word, arguments⟩ := calls
  cases line with
  | nil => simp at apart
  | cons c tail =>
      have first : Flow.isApart c = true := by simpa using apart
      have noEndfor : Flow.isEndfor (c :: tail) = false := Flow.isWordLine_apart tail first (by decide) (by decide)
      have noShell : c ≠ '!' := by
        rintro rfl
        exact absurd first (by decide)
      simp only [Interpreter.runStatement, Flow.isForeach_apart tail first, noEndfor, Bool.false_eq_true, if_false,
        List.head?_cons, Option.some.injEq, if_neg noShell, word, arguments]

section

variable (notSkipping : session.frame.conditions.head?.any Branch.isSkipping = false)
  (notCollecting : session.frame.loops.head?.any Loop.isCollecting = false)
  (notLeaving : session.frame.loops.head?.any (·.mode = .leaving) = false)
  (unchanged : AliasTable.apply session.frame.aliasTables line = line)

include notSkipping notCollecting notLeaving unchanged

theorem statement_eq (calls : Calls line command rest) (env : Env σ) (exec : Text → Run σ Unit) :
    Interpreter.statement env exec line session = Interpreter.runCommand env exec command rest session := by
  rw [← calls.runStatement_eq]
  obtain ⟨-, noComment, trimmed, balanced, apart, -, -⟩ := calls
  have filled : line.isEmpty = false := by
    cases line with
    | nil => simp at apart
    | cons c tail => rfl
  have judged : Flow.judge false session.frame.conditions line = .runs := by
    cases line with
    | nil => simp at apart
    | cons c tail => exact Flow.judge_apart tail (by simpa using apart) notSkipping
  have passed : Interpreter.passConditions env false line session = .ok false session := by
    simp only [Interpreter.passConditions, bind, EStateM.bind, EStateM.get_apply, judged]
    rfl
  simp only [Interpreter.statement, noComment, trimmed, filled, balanced, Bool.false_eq_true, if_false, bind,
    EStateM.bind, EStateM.get_apply, Run.ofMalformed, Run.ofExcept, pure, EStateM.pure, notCollecting, notLeaving,
    unchanged, ite_self, passed]
  rfl

theorem execLine_eq (calls : Calls line command rest) (depth : Nat) :
    Interpreter.execLine env (depth + 1) line session =
      Interpreter.runCommand env (Interpreter.execLine env depth) command rest session := by
  have ran := calls.statement_eq notSkipping notCollecting notLeaving unchanged env (Interpreter.execLine env depth)
  simp only [Interpreter.execLine, calls.single, Interpreter.statements, bind, EStateM.bind, Run.ofMalformed,
    Run.ofExcept,
    pure, EStateM.pure, List.forM_eq_forM, List.forM_cons, List.forM_nil, ran]
  cases Interpreter.runCommand env (Interpreter.execLine env depth) command rest session <;> rfl

end

theorem parseLine_eq (calls : Calls line command rest) (heard : env.services.Hears) (depth : Nat)
    {goal : Session σ} (executes : session.Executes) (stays : goal.store.redirected = false)
    (unchanged : AliasTable.apply session.frame.aliasTables line = line)
    (effect : ∀ (exec : Text → Run σ Unit) number callers store host, store.Alike session.store →
      ∃ after, after.Alike goal.store ∧
        Interpreter.runCommand env exec command rest (session.within number line callers 8 store host) =
          .ok () (goal.within number line callers 8 after host)) :
    ∃ after, Interpreter.parseLine env (depth + 1) line session = .ok true after ∧ goal.Moved after := by
  apply Interpreter.parseLine_heard heard executes stays
  intro number callers store host alike
  obtain ⟨after, close, runs⟩ := effect (Interpreter.execLine env depth) number callers store host alike
  have ran := @execLine_eq σ line rest command env (session.within number line callers 8 store host)
    executes.notSkipping executes.notCollecting executes.notLeaving unchanged calls depth
  exact ⟨after, close, ran.trans runs⟩

end Calls

namespace AliasTable

def lineWords : List Text := ["set", "print", "x", "y"]

def LeavesLines (tables : List AliasTable) : Prop :=
  ∀ table ∈ tables, ∀ word ∈ lineWords, table.has word = false

variable {tables : List AliasTable}

theorem LeavesLines.replacement (leaves : LeavesLines tables) {shown : List AliasTable}
    (among : shown ⊆ tables) (word : Text) (member : word ∈ lineWords) : replacement shown word = word :=
  replacement_kept fun table found => leaves table (among found) word member

theorem apply_eq {line : Text} (same : ∀ shown ⊆ tables, substitute shown [] (line.zip (mask line)) = line) :
    apply tables line = line := by
  simp only [apply]
  split
  · rfl
  · exact same _ (List.filter_subset_self tables)

variable {front body : Text}

theorem mask_quoted (inert : front.all Text.isInert = true) (clear : .char '"' ∉ body)
    (noKeyword : ∀ n, blankKeywords (front ++ spaces n) = front ++ spaces n)
    (noDefinition : ∀ n, blankDefinition (front ++ spaces n) = front ++ spaces n) :
    mask (front ++ Text.quoted body) = front ++ spaces (body.length + 2) := by
  rw [mask, blankQuotes_quoted inert clear, noKeyword, noDefinition]

-- The words before the quotes are looked up one by one; the quoted text is masked as a whole.
theorem apply_quoted (masked : mask (front ++ Text.quoted body) = front ++ spaces (body.length + 2))
    (kept : ∀ shown ⊆ tables, ∀ pairs,
      substitute shown [] (front.zip front ++ pairs) = front ++ substitute shown [] pairs) :
    apply tables (front ++ Text.quoted body) = front ++ Text.quoted body := by
  apply apply_eq
  intro shown among
  have hidden : substitute shown [] ((Text.quoted body).zip (spaces (body.length + 2))) = Text.quoted body := by
    rw [substitute_masked, List.map_fst_zip]
    · simp [Text.quoted, spaces]
    · rintro ⟨c, blank⟩ member
      have space := (List.of_mem_zip member).2
      rw [spaces, List.mem_replicate] at space
      change isDelimiter blank = true
      rw [space.2]
      decide
  rw [masked, List.zip_append rfl, kept shown among, hidden]

theorem apply_storing (clear : .char '"' ∉ body) (leaves : LeavesLines tables) :
    apply tables ("set x = " ++ Text.quoted body) = "set x = " ++ Text.quoted body := by
  have noKeyword (n : Nat) : blankKeywords ("set x = " ++ spaces n) = "set x = " ++ spaces n := by
    rw [show ("set x = " : Text) ++ spaces n = .char 's' :: .char 'e' :: .char 't' :: .char ' ' :: .char 'x' ::
      .char ' ' :: .char '=' :: .char ' ' :: spaces n from rfl]
    iterate 8 rw [blankKeywords_cons rfl]
    rw [blankKeywords_spaces]
  refine apply_quoted (mask_quoted (by decide) clear noKeyword fun _ => rfl) fun shown among pairs => ?_
  change replacement shown "set" ++ .char ' ' ::
    (replacement shown "x" ++ .char ' ' :: (replacement shown [] ++ .char '=' ::
    (replacement shown [] ++ .char ' ' :: substitute shown [] pairs))) = _
  rw [leaves.replacement among "set" (by decide), leaves.replacement among "x" (by decide)]
  rfl

theorem apply_printing (leaves : LeavesLines tables) : apply tables "print x" = "print x" := by
  apply apply_eq
  intro shown among
  rw [mask_inert (by decide) (by decide) (by decide)]
  change replacement shown "print" ++ .char ' ' :: replacement shown "x" = _
  rw [leaves.replacement among "print" (by decide), leaves.replacement among "x" (by decide)]
  rfl

theorem apply_copying (leaves : LeavesLines tables) : apply tables "set y = x" = "set y = x" := by
  apply apply_eq
  intro shown among
  rw [mask_inert (by decide) (by decide) (by decide)]
  change replacement shown "set" ++ .char ' ' ::
    (replacement shown "y" ++ .char ' ' :: (replacement shown [] ++ .char '=' ::
    (replacement shown [] ++ .char ' ' :: replacement shown "x"))) = _
  rw [leaves.replacement among "set" (by decide), leaves.replacement among "y" (by decide),
    leaves.replacement among "x" (by decide)]
  rfl

end AliasTable

theorem calls_storing {body : Text} (clear : .char '"' ∉ body) :
    Calls ("set x = " ++ Text.quoted body) .set ("x = " ++ Text.quoted body) where
  single := @Text.splitStatements_quoted "et x = " body 's' (by decide) (by decide) clear
  noComment := Text.stripComment_quoted (by decide) clear
  trimmed := @Text.trim_quoted 's' (by decide) "et x = " body
  balanced := Text.checkBalance_quoted (by decide) clear
  apart := rfl
  word := rfl
  arguments := @Text.trim_quoted 'x' (by decide) " = " body

theorem calls_printing : Calls "print x" .print "x" where
  single := by cbv
  noComment := by cbv
  trimmed := by decide
  balanced := by cbv
  apart := rfl
  word := rfl
  arguments := by decide

theorem calls_copying : Calls "set y = x" .set "y = x" where
  single := by cbv
  noComment := by cbv
  trimmed := by decide
  balanced := by cbv
  apart := rfl
  word := rfl
  arguments := by decide

namespace Identifier

def formula (identifier : Identifier) : Formula (some .logic) := .plain (.plain (.plain (.plain (.name identifier))))

variable (identifier : Identifier) {env : Env σ} {session : Session σ} {body : Text}

theorem valueOf_quoted (known : session.store.lookup identifier.text = some (Text.quoted body))
    (shallow : session.depth + 10 ≤ Run.callLimit) :
    Expr.valueOf env identifier.text session = .ok (.text body) session := by
  have read := @Formula.valueOf_compound σ identifier.formula rfl env session
  rw [show identifier.formula.expr.callsNeeded = 10 from rfl, if_neg (Nat.not_lt.mpr shallow)] at read
  exact read.trans (identifier.bare.evalTerm_stored env known (Value.classify_quoted body))

theorem evaluate_quoted (known : session.store.lookup identifier.text = some (Text.quoted body))
    (shallow : session.depth + 10 ≤ Run.callLimit) :
    Expr.evaluate env identifier.text false session = .ok (Outcome.string body) session := by
  have value := @valueOf_quoted σ identifier env session body known shallow
  simp only [Expr.evaluate, Bool.false_eq_true, if_false, Run.onError, Run.attempt, bind, EStateM.bind, value]
  rfl

theorem storedWord_quoted (command : Text)
    (known : session.store.lookup identifier.text = some (Text.quoted body))
    (shallow : session.depth + 10 ≤ Run.callLimit) :
    Words.storedWord env command identifier.text session = .ok body session := by
  have noNumber : Number.isNumber identifier.text = false := by
    rw [Number.isNumber, identifier.parseDecimal]
    rfl
  simp only [Words.storedWord, noNumber, Bool.false_eq_true, if_false, identifier.parseDouble, Run.ofFault,
    Run.ofExcept, bind, EStateM.bind, pure, EStateM.pure,
    @evaluate_quoted σ identifier env session body known shallow]
  rfl

end Identifier

namespace Command

variable {env : Env σ} {session : Session σ} {body : Text}

theorem storedName_identifier (command : Text) (identifier : Identifier)
    (storable : Names.checkStored identifier.text = .ok ()) (text : Text) :
    (storedName command (identifier.text ++ " = " ++ text) : Run σ (Text × Text)) =
      pure (identifier.text, Text.trim (.char ' ' :: text)) := by
  have word : (identifier.text ++ " = " ++ text).takeWhile
      (fun c => !(Text.isBlank c || decide (c = '=') || Quote.isOpening c)) = identifier.text := by
    rw [List.append_assoc, List.takeWhile_append_of_pos]
    · exact List.append_nil _
    · intro c member
      have mark := identifier.mark member
      obtain ⟨visible, -, noQuote, -⟩ := isWordMark_neutral mark
      have noEquals : c ≠ '=' := by
        rintro rfl
        exact absurd mark (by decide)
      simp [visible, noEquals, Quote.isOpening, noQuote]
  have after : Text.trimLeft ((identifier.text ++ " = " ++ text).drop identifier.text.length) =
      .char '=' :: .char ' ' :: text := by
    rw [List.append_assoc, List.drop_left]
    rfl
  simp only [storedName, word, storable, after]

theorem runSet_storing (clear : .char '"' ∉ body) :
    runSet env ("x = " ++ Text.quoted body) session = .ok () (session.put "x" (Text.quoted body)) := by
  have trimmed : Text.trim (.char ' ' :: Text.quoted body) = Text.quoted body := Text.trim_quoted_alone body
  have named := @storedName_identifier σ "set" Assignment.x (by decide) (Text.quoted body)
  rw [trimmed] at named
  rw [runSet, show ("x = " : Text) = Assignment.x.text ++ " = " from rfl, named]
  simp only [Words.concatenate, Piece.ofStored_quoted clear, Piece.texts, bind, EStateM.bind, pure, EStateM.pure,
    Run.put, EStateM.modify_apply]
  simp [Text.quoted, Assignment.x]

theorem runSet_copying (known : session.store.lookup "x" = some (Text.quoted body))
    (shallow : session.depth + 10 ≤ Run.callLimit) :
    runSet env "y = x" session = .ok () (session.put "y" (Text.quoted body)) := by
  have named := @storedName_identifier σ "set" Assignment.y (by decide) "x"
  have word : Words.storedWord env "set" "x" session = .ok body session :=
    Assignment.x.storedWord_quoted "set" known shallow
  rw [runSet, show ("y = x" : Text) = Assignment.y.text ++ " = " ++ "x" from rfl, named]
  simp only [Words.concatenate, show Piece.ofStored (Text.trim (.char ' ' :: "x")) = [.word "x"] by cbv,
    Piece.texts, bind, EStateM.bind, pure, EStateM.pure, word, Run.put, EStateM.modify_apply]
  simp [Text.quoted, Assignment.y]

theorem runPrint_stored (known : session.store.lookup "x" = some (Text.quoted body))
    (shallow : session.depth + 10 ≤ Run.callLimit) {written : Session σ}
    (writes : session.write (body ++ "\n") = .ok written) : runPrint env "x" session = .ok () written := by
  have value : Expr.evaluate env "x" false session = .ok (Outcome.string body) session :=
    Assignment.x.evaluate_quoted known shallow
  have shown : PrintStyle.print.valueText env "x" session = .ok body session := by
    simp only [PrintStyle.valueText, bind, EStateM.bind, value]
    rfl
  -- the separator after the item is the blank that is dropped
  have dropped : PrintStyle.dropLastBlank (body ++ PrintStyle.print.separator ++ []) = body := by
    simp [PrintStyle.dropLastBlank, PrintStyle.print]
  have rendered : PrintStyle.print.render env "x" session = .ok body session := by
    simp only [PrintStyle.render, show PrintItem.scan PrintStyle.print.command "x" = [.word "x" none] by cbv,
      PrintStyle.itemsText, PrintStyle.itemText, bind, EStateM.bind, shown, pure, EStateM.pure, dropped]
  simp only [runPrint, require, show ("x" : Text).isEmpty = false from rfl, Bool.false_eq_true, if_false, bind,
    EStateM.bind, pure, EStateM.pure, rendered, Run.writeLine, Run.write, EStateM.get_apply, Run.ofFault, writes]
  rfl

end Command

namespace Session

theorem Executes.of_moved {before after : Session σ} (executes : before.Executes) (moved : before.Moved after) :
    after.Executes := by
  obtain ⟨line, statement, callers, store, host, alike, rfl⟩ := moved
  obtain ⟨running, -, notSkipping, notCollecting, notLeaving, direct⟩ := executes
  exact ⟨running, rfl, notSkipping, notCollecting, notLeaving, alike.redirected.trans direct⟩

theorem Moved.store {before after : Session σ} (moved : before.Moved after) : after.store.Alike before.store := by
  obtain ⟨line, statement, callers, store, host, alike, rfl⟩ := moved
  exact alike

theorem Moved.aliasTables {before after : Session σ} (moved : before.Moved after) :
    after.frame.aliasTables = before.frame.aliasTables := by
  obtain ⟨line, statement, callers, store, host, -, rfl⟩ := moved
  rfl

theorem Executes.put {session : Session σ} (executes : session.Executes) (name value : Text) :
    (session.put name value).Executes := by
  obtain ⟨running, between, notSkipping, notCollecting, notLeaving, direct⟩ := executes
  exact ⟨running, between, notSkipping, notCollecting, notLeaving, Store.set_direct direct name value⟩

theorem lookup_put {session : Session σ} (direct : session.store.redirected = false) {name : Text}
    (unshared : session.store.globals.has name = false) (value : Text) :
    (session.put name value).store.lookup name = some value := by
  rw [Session.put, Store.lookup_set direct, if_pos]
  refine ⟨rfl, ?_⟩
  intro hides
  rw [hides.2] at unshared
  cases unshared

theorem write_total {session : Session σ} {text : Text}
    (writable : session.printFile = none ∨ ∃ characters : String, text = Text.ofString characters) :
    ∃ written, session.write text = .ok written := by
  unfold write
  cases opened : session.printFile with
  | none => exact ⟨_, rfl⟩
  | some handle =>
      obtain ⟨characters, whole⟩ := writable.resolve_left (by simp [opened])
      rw [encodeWhole, Text.encode?_eq_some.mpr ⟨characters, whole, rfl⟩]
      exact ⟨_, rfl⟩

theorem write_unmoved {session written : Session σ} {text : Text} (writes : session.write text = .ok written) :
    written.store = session.store ∧ written.frame = session.frame ∧ written.stopped = session.stopped ∧
      written.depth = session.depth := by
  unfold write at writes
  split at writes
  · cases encoded : encodeWhole text with
    | error fault =>
        rw [encoded] at writes
        cases writes
    | ok bytes =>
        rw [encoded] at writes
        cases writes
        exact ⟨rfl, rfl, rfl, rfl⟩
  · cases writes
    exact ⟨rfl, rfl, rfl, rfl⟩

theorem Executes.write {session written : Session σ} {text : Text} (executes : session.Executes)
    (writes : session.write text = .ok written) : written.Executes := by
  obtain ⟨running, between, notSkipping, notCollecting, notLeaving, direct⟩ := executes
  obtain ⟨store, frame, stopped, depth⟩ := write_unmoved writes
  refine ⟨stopped ▸ running, depth ▸ between, ?_, ?_, ?_, store ▸ direct⟩
  all_goals
    rw [frame]
    assumption

end Session

namespace Interpreter

variable {env : Env σ} {session : Session σ} {body : Text}

theorem parseLine_storing (heard : env.services.Hears) (depth : Nat) (executes : session.Executes)
    (leaves : AliasTable.LeavesLines session.frame.aliasTables) (noGlobal : session.store.globals.has "x" = false)
    (clear : .char '"' ∉ body) :
    ∃ after, parseLine env (depth + 1) ("set x = " ++ Text.quoted body) session = .ok true after ∧
      (session.put "x" (Text.quoted body)).Moved after := by
  apply (calls_storing clear).parseLine_eq heard depth executes (executes.put _ _).direct
  · exact AliasTable.apply_storing clear leaves
  · intro exec number callers store host alike
    exact ⟨_, alike.set executes.direct (by decide) noGlobal _, Command.runSet_storing clear⟩

theorem parseLine_printing (heard : env.services.Hears) (depth : Nat) (executes : session.Executes)
    (leaves : AliasTable.LeavesLines session.frame.aliasTables)
    (known : session.store.lookup "x" = some (Text.quoted body)) {written : Session σ}
    (writes : session.write (body ++ "\n") = .ok written) :
    ∃ after, parseLine env (depth + 1) "print x" session = .ok true after ∧ written.Moved after := by
  apply calls_printing.parseLine_eq heard depth executes (executes.write writes).direct
  · exact AliasTable.apply_printing leaves
  · intro exec number callers store host alike
    refine ⟨store, (Session.write_unmoved writes).1 ▸ alike, ?_⟩
    exact @Command.runPrint_stored σ env (session.within number "print x" callers 8 store host) body
      ((alike.lookup "x" (by decide)).trans known) (show 8 + 10 ≤ Run.callLimit by decide) _
      (Session.write_within writes number "print x" callers 8 store host)

theorem parseLine_copying (heard : env.services.Hears) (depth : Nat) (executes : session.Executes)
    (leaves : AliasTable.LeavesLines session.frame.aliasTables) (noGlobal : session.store.globals.has "y" = false)
    (known : session.store.lookup "x" = some (Text.quoted body)) :
    ∃ after, parseLine env (depth + 1) "set y = x" session = .ok true after ∧
      (session.put "y" (Text.quoted body)).Moved after := by
  apply calls_copying.parseLine_eq heard depth executes (executes.put _ _).direct
  · exact AliasTable.apply_copying leaves
  · intro exec number callers store host alike
    refine ⟨_, alike.set executes.direct (by decide) noGlobal _, ?_⟩
    exact @Command.runSet_copying σ env (session.within number "set y = x" callers 8 store host) body
      ((alike.lookup "x" (by decide)).trans known) (show 8 + 10 ≤ Run.callLimit by decide)

theorem parseLine_copying_value (heard : env.services.Hears) (depth : Nat) (executes : session.Executes)
    (leaves : AliasTable.LeavesLines session.frame.aliasTables)
    (noGlobal : session.store.globals.has "y" = false)
    (known : session.store.lookup "x" = some (Text.quoted body)) :
    ∃ copied, parseLine env (depth + 1) "set y = x" session = .ok true copied ∧
      Expr.valueOf env "y" copied = .ok (.text body) copied ∧
      Expr.evaluate env "y" false copied = .ok (Outcome.string body) copied := by
  obtain ⟨copied, parsed, moved⟩ := parseLine_copying heard depth executes leaves noGlobal known
  have stored : copied.store.lookup Assignment.y.text = some (Text.quoted body) :=
    (moved.store.lookup "y" (by decide)).trans (Session.lookup_put executes.direct noGlobal _)
  have shallow : copied.depth + 10 ≤ Run.callLimit := by
    rw [((executes.put _ _).of_moved moved).between]
    decide
  exact ⟨copied, parsed, Assignment.y.valueOf_quoted stored shallow, Assignment.y.evaluate_quoted stored shallow⟩

end Interpreter

end CommandScript
