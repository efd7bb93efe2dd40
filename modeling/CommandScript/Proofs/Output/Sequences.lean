import CommandScript.Proofs.Output.Calls

/-! Statements that write, one after another. The file that was opened for them gets the bytes of those that succeed, in
order, and nothing else. -/

namespace CommandScript

variable {σ : Type}

theorem Text.cutOrAll_append {mark : CodePoint} {front : Text} (clear : mark ∉ front) (s : Text) :
    (cutOrAll mark (front ++ s)).1 = front ++ (cutOrAll mark s).1 := by
  induction front with
  | nil => rfl
  | cons c front ih =>
      obtain ⟨other, clear⟩ := not_or.mp (mt List.mem_cons.mpr clear)
      have inner := ih clear
      rw [cutOrAll] at inner ⊢
      rw [List.cons_append, List.cons_append, cut?, if_neg (Ne.symm other), ← inner]
      cases cut? mark (front ++ s) <;> rfl

namespace Flow

variable {rest : Text}

theorem isWordLine_write {c : CodePoint} (other : c ≠ 'w') (word : Text) :
    isWordLine (c :: word) (.char 'w' :: rest) = false := by
  obtain ⟨more, lowered⟩ : ∃ more : Text, Text.lower (.char 'w' :: rest) = .char 'w' :: more := ⟨_, rfl⟩
  simp [isWordLine, lowered, Text.startsWith, List.isPrefixOf, other, other.symm]

theorem judge_write {conditions : List Branch} (executing : conditions.head?.any Branch.isSkipping = false) :
    judge false conditions (.char 'w' :: rest) = .runs := by
  obtain ⟨more, lowered⟩ : ∃ more : Text, Text.lower (.char 'w' :: rest) = .char 'w' :: more := ⟨_, rfl⟩
  have noEndif : isEndif (.char 'w' :: rest) = false := isWordLine_write (by decide) ("ndif" : Text)
  have noCondition : conditionWord? (.char 'w' :: rest) = none := rfl
  simp [judge, lowered, noEndif, noCondition, executing]

theorem isForeach_write : isForeach (.char 'w' :: rest) = false := by
  obtain ⟨kept, same⟩ : ∃ kept, ((.char 'w' :: rest).filter fun c => !Text.isBlank c).take 8 = .char 'w' :: kept :=
    ⟨_, rfl⟩
  obtain ⟨more, lowered⟩ : ∃ more : Text, Text.lower (.char 'w' :: kept) = .char 'w' :: more := ⟨_, rfl⟩
  simp [isForeach, same, lowered]

end Flow

namespace WriteKind

variable (kind : WriteKind) (rest : Text)

theorem noCommand : Command.of? (Text.cutOrAll ' ' (kind.name ++ .char '(' :: rest)).1 = none := by
  obtain ⟨word, cut⟩ : ∃ word : Text, (Text.cutOrAll ' ' (kind.name ++ .char '(' :: rest)).1 =
      kind.name ++ .char '(' :: word := by
    have clear : .char ' ' ∉ kind.name ++ (['('] : Text) := by cases kind <;> decide
    have split : kind.name ++ .char '(' :: rest = (kind.name ++ (['('] : Text)) ++ rest := by simp
    rw [split, Text.cutOrAll_append clear]
    exact ⟨_, List.append_assoc ..⟩
  obtain ⟨more, lowered⟩ : ∃ more : Text, Text.lower (kind.name ++ .char '(' :: word) =
      Text.lower kind.name ++ .char '(' :: more := by
    cases kind <;> exact ⟨_, rfl⟩
  rw [cut, Command.of?]
  cases found : Command.table.lookup (Text.lower (kind.name ++ .char '(' :: word)) with
  | none => rfl
  | some command =>
      obtain ⟨before, after, whole, -⟩ := List.lookup_eq_some_iff.mp found
      have member : (Text.lower (kind.name ++ .char '(' :: word), command) ∈ Command.table := by
        rw [whole]
        simp
      have clear : ∀ entry ∈ Command.table, .char '(' ∉ entry.1 := by decide
      refine absurd ?_ (clear _ member)
      rw [lowered]
      simp

theorem isWriteCall : Interpreter.isWriteCall (kind.name ++ .char '(' :: rest) = true := by
  cases kind <;> rfl

theorem runStatement_eq (env : Env σ) (exec : Text → Run σ Unit) :
    Interpreter.runStatement env exec (kind.name ++ .char '(' :: rest) =
      (do let _ ← Expr.valueOf env (kind.name ++ .char '(' :: rest)) := by
  obtain ⟨more, starts⟩ : ∃ more, kind.name ++ .char '(' :: rest = .char 'w' :: more := by cases kind <;> exact ⟨_, rfl⟩
  have noForeach : Flow.isForeach (kind.name ++ .char '(' :: rest) = false := starts ▸ Flow.isForeach_write
  have noEndfor : Flow.isEndfor (kind.name ++ .char '(' :: rest) = false := by
    rw [starts]
    exact Flow.isWordLine_write (by decide) ("ndfor" : Text)
  have noShell : (kind.name ++ .char '(' :: rest).head? ≠ some (.char '!') := by simp [starts]
  simp only [Interpreter.runStatement, noForeach, noEndfor, Bool.false_eq_true, if_false, if_neg noShell,
    kind.noCommand,
    kind.isWriteCall, if_true]

end WriteKind

/-- Statements are run: none is skipped or collected, and no loop is being left. -/
structure Session.Unblocked (session : Session σ) : Prop where
  notSkipping : session.frame.conditions.head?.any Branch.isSkipping = false
  notCollecting : session.frame.loops.head?.any Loop.isCollecting = false
  notLeaving : session.frame.loops.head?.any (·.mode = .leaving) = false

namespace WriteCall

variable {call : WriteCall} {env : Env σ} {exec : Text → Run σ Unit} {session : Session σ}

theorem statement_eq (ready : call.Ready session) (unblocked : session.Unblocked) :
    Interpreter.statement env exec call.text session =
      (do
        let values ← Expr.evalAll env false call.args
        let _ ← Builtin.invoke env call.kind.name values) session := by
  obtain ⟨⟨⟨rest, shape⟩, parsed, -, unchanged⟩, room⟩ := ready
  obtain ⟨notSkipping, notCollecting, notLeaving⟩ := unblocked
  obtain ⟨more, starts⟩ : ∃ more, call.line = .char 'w' :: more := by
    rw [shape]
    cases call.kind <;> exact ⟨_, rfl⟩
  have filled : call.line.isEmpty = false := by rw [starts]; rfl
  have balanced : Text.checkBalance call.line = .ok () := by
    obtain ⟨tokens, tokenized, -⟩ := Expr.parse_eq_ok.mp parsed
    obtain ⟨_, checked, -⟩ := bind_eq_ok.mp tokenized
    exact checked
  have passed : Interpreter.passConditions env false call.line session = .ok false session := by
    simp only [Interpreter.passConditions, bind, EStateM.bind, EStateM.get_apply, starts, Flow.judge_write notSkipping]
    rfl
  have runs : Interpreter.runStatement env exec call.line = (do let _ ← Expr.valueOf env call.line) := by
    rw [shape]
    exact call.kind.runStatement_eq rest env exec
  have value : Expr.valueOf env call.line session = (do
      let values ← Expr.evalAll env false call.args
      Builtin.invoke env call.kind.name values) session := by
    have trimmed : Text.trim call.line = call.line := Text.trim_trim _
    have foreign : .char '(' ∈ call.line := by simp [shape]
    have noNumber : Number.isNumber call.line = false := Number.isNumber_foreign (by decide) trimmed foreign
    have noTruth : ¬(Text.lower call.line = "true" ∨ Text.lower call.line = "false") := by
      obtain ⟨letters, lowered⟩ : ∃ letters, Text.lower (.char 'w' :: more) = .char 'w' :: letters := ⟨_, rfl⟩
      rw [starts, lowered]
      rintro (same | same) <;> cases same
    rw [Expr.valueOf_parsed trimmed noNumber noTruth parsed, if_neg (Nat.not_lt.mpr room), tree, Expr.eval]
    have evaluated : Expr.askedName? call.kind.name call.args = none := by
      unfold Expr.askedName?
      split
      · exact if_neg (by cases call.kind <;> decide)
      · rfl
    rw [evaluated]
  have whole : Interpreter.statement env exec call.text session =
      Interpreter.runStatement env exec call.line session := by
    rw [line] at filled balanced unchanged passed ⊢
    simp only [Interpreter.statement, filled, balanced, Bool.false_eq_true, if_false, bind, EStateM.bind,
      EStateM.get_apply,
      Run.ofMalformed, Run.ofExcept, pure, EStateM.pure, notCollecting, notLeaving, unchanged, ite_self, passed]
    rfl
  have moved (next : Value → Run σ Unit) : (Expr.valueOf env call.line >>= next) session =
      ((do
        let values ← Expr.evalAll env false call.args
        Builtin.invoke env call.kind.name values) >>= next) session := by
    change EStateM.bind _ _ _ = EStateM.bind _ _ _
    rw [EStateM.bind, EStateM.bind, value]
  rw [whole, runs, moved, bind_assoc]

/-- One statement succeeds and adds the bytes of its values, or fails and adds nothing. -/
inductive Adds (env : Env σ) (exec : Text → Run σ Unit) (call : WriteCall) (session : Session σ) : List UInt8 → Prop
  | written {values : List Value} {middle after : Session σ} {bytes : List UInt8} :
      Interpreter.statement env exec call.text session = .ok () after →
      Expr.evalAll env false call.args session = .ok values middle → call.kind.Accepts values →
      call.kind.Encodes values bytes → Adds env exec call session bytes
  | failed {exit : Exit} {after : Session σ} :
      Interpreter.statement env exec call.text session = .error exit after →
      (∀ values middle, Expr.evalAll env false call.args session = .ok values middle → ¬call.kind.Accepts values) →
      Adds env exec call session []

/-- Statements one after another, each from where the one before it has led to, add bytes in order. -/
inductive AddsAll (env : Env σ) (exec : Text → Run σ Unit) : Session σ → List WriteCall → List UInt8 → Prop
  | none {session : Session σ} : AddsAll env exec session [] []
  | next {session : Session σ} {call : WriteCall} {rest : List WriteCall} {bytes more : List UInt8} :
      call.Adds env exec session bytes →
      AddsAll env exec ((Interpreter.statement env exec call.text).leaves session) rest more →
      AddsAll env exec session (call :: rest) (bytes ++ more)

def leads (env : Env σ) (exec : Text → Run σ Unit) (session : Session σ) (calls : List WriteCall) : Session σ :=
  calls.foldl (fun session call => (Interpreter.statement env exec call.text).leaves session) session

variable {place : Location} {bytes : List UInt8}

theorem adds (ready : call.Ready session) (unblocked : session.Unblocked) (had : session.HasWritten place bytes) :
    let after := (Interpreter.statement env exec call.text).leaves session
    (∃ more, call.Adds env exec session more ∧ after.HasWritten place (bytes ++ more)) ∧
      after.frame = session.frame ∧ after.depth = session.depth := by
  have ran := @statement_eq σ call env exec session ready unblocked
  have kept := Expr.evalAll_asks env session false ready.reads.callFree ⟨session.host, rfl⟩
  cases evaluated : Expr.evalAll env false call.args session with
  | error exit middle =>
      rw [evaluated] at kept
      obtain ⟨_, rfl⟩ : session.Asked middle := by cases kept; assumption
      change _ = EStateM.bind (Expr.evalAll env false call.args) _ session at ran
      rw [EStateM.bind, evaluated] at ran
      dsimp only
      rw [Run.leaves, ran]
      refine ⟨⟨[], .failed ran fun values middle ended => ?_, ?_⟩, rfl, rfl⟩
      · rw [evaluated] at ended
        cases ended
      · rwa [List.append_nil]
  | ok values middle =>
      rw [evaluated] at kept
      obtain ⟨host, rfl⟩ : session.Asked middle := by cases kept; assumption
      rw [Run.bind_ok evaluated] at ran
      obtain ⟨handle, opened, same, holds⟩ := had
      have writes := @Builtin.invoke_writes σ { session with host } handle opened env call.kind values
      change _ = EStateM.bind (Builtin.invoke env call.kind.name values) _ _ at ran
      rw [EStateM.bind] at ran
      generalize Builtin.invoke env call.kind.name values { session with host } = result at writes ran
      dsimp only
      cases writes with
      | written accepted encoded =>
          have had' : { session with host }.HasWritten place bytes := ⟨handle, opened, same, holds⟩
          rw [Run.leaves, ran]
          refine ⟨⟨_, .written ran evaluated accepted encoded, had'.writeBytes _⟩, ?_⟩
          exact ⟨Session.writeBytes_frame _ _, Session.writeBytes_depth _ _⟩
      | refused none =>
          rw [Run.leaves, ran]
          refine ⟨⟨[], .failed ran fun others middle ended => ?_, ?_⟩, rfl, rfl⟩
          · rw [evaluated] at ended
            cases ended
            exact none
          · rw [List.append_nil]
            exact ⟨handle, opened, same, holds⟩

theorem adds_all {calls : List WriteCall} (ready : ∀ call ∈ calls, call.Ready session) (unblocked : session.Unblocked)
    (had : session.HasWritten place bytes) :
    ∃ more, AddsAll env exec session calls more ∧ (leads env exec session calls).HasWritten place (bytes ++ more) := by
  induction calls generalizing session bytes with
  | nil => exact ⟨[], .none, by rwa [List.append_nil]⟩
  | cons call rest ih =>
      obtain ⟨⟨first, added, has⟩, frame, depth⟩ :=
        @adds σ call env exec session place bytes (ready call List.mem_cons_self) unblocked had
      generalize next : (Interpreter.statement env exec call.text).leaves session = after at has frame depth
      have stillReady : ∀ other ∈ rest, other.Ready after := by
        intro other member
        obtain ⟨reads, room⟩ := ready other (List.mem_cons_of_mem _ member)
        exact ⟨frame ▸ reads, depth ▸ room⟩
      have stillUnblocked : after.Unblocked := by
        obtain ⟨notSkipping, notCollecting, notLeaving⟩ := unblocked
        rw [← frame] at notSkipping notCollecting notLeaving
        exact ⟨notSkipping, notCollecting, notLeaving⟩
      obtain ⟨more, others, ended⟩ := ih stillReady stillUnblocked has
      subst next
      exact ⟨first ++ more, .next added others, by rwa [← List.append_assoc]⟩

def sample : List WriteCall :=
  [ofArguments .int [.word (some .minus) "2147483648"], ofArguments .int [.word none "2147483648"],
   ofArguments .string [.quoted .single "ab"], ofArguments .array [.word none "b", .word none "2", .word none "1"],
   ofArguments .array [.word none "b", .word none "3", .word none "2"]]

def sampleBefore : Session Unit := (Session.start {} ()).bind "b" (.int32 [7, -1, 9])

def sampleStart : Session Unit := (Command.runWriteOpen {} "out").leaves sampleBefore

end WriteCall

end CommandScript
