import CommandScript.Proofs.Integers.Running

/-! Integer programs: lists of assignments, run line by line on a session without a host. Each line does what the
standard meaning of its formula says, within the limits on digits and on the depth of calls. -/

namespace CommandScript

variable {σ : Type}

theorem Report.add_eq (env : Env σ) (error : ScriptError) (session : Session σ) :
    ∃ diagnostics, Report.add env error session = .ok () { session with diagnostics } := by
  by_cases json : env.options.jsonReports
  · refine ⟨(session.diagnostics.push (Report.text session env.options.verbose error)).push
      ((Report.document session error).render 0), ?_⟩
    simp [Report.add, json, Run.report, Session.report, bind, EStateM.bind, EStateM.get_apply,
      EStateM.modify_apply]
  · refine ⟨session.diagnostics.push (Report.text session env.options.verbose error), ?_⟩
    simp [Report.add, json, Run.report, Session.report, bind, EStateM.bind, EStateM.get_apply,
      EStateM.modify_apply, pure, EStateM.pure]

/-- Names go to the one scope of the session. -/
structure Store.Flat (store : Store) : Prop where
  direct : store.redirected = false
  single : ∃ scope, store.scopes = [scope]
  globals : ∀ identifier : Identifier, store.globals.get? identifier.text = none

namespace Store.Flat

variable {store : Store}

theorem set (flat : store.Flat) (identifier : Identifier) (value : Text) : (store.set identifier.text value).Flat ∧
    ∀ name, (store.set identifier.text value).lookup name =
      if name = identifier.text then some value else store.lookup name := by
  obtain ⟨scope, single⟩ := flat.single
  have missing : store.globals.has identifier.text = false := by
    rw [Scope.has, flat.globals identifier]
    rfl
  have stored : store.set identifier.text value = { store with scopes := [scope.set identifier.text value] } := by
    simp [Store.set, missing, flat.direct, Store.updateInnermost, single]
  rw [stored]
  refine ⟨⟨flat.direct, ⟨_, rfl⟩, flat.globals⟩, ?_⟩
  intro name
  by_cases same : name = identifier.text
  · simp [Store.lookup, Scope.get?_set, same]
  · simp [Store.lookup, Scope.get?_set, same, single]

end Store.Flat

/-- A session that stands at its own level between two lines, with the variables of a table. -/
structure AtRest (session : Session σ) (bindings : Variables) : Prop extends Agrees session bindings where
  running : session.stopped = false
  top : session.callers = []
  shallow : session.depth = 0
  noLoops : session.frame.loops = []
  noConditions : session.frame.conditions = []
  noAliases : session.frame.aliases = []
  flat : session.store.Flat

/-- What a formula needs to be evaluated: literals and a result of at most 4300 digits, and a nesting within the limit
on calls. -/
structure Formula.Fits (e : Formula (some .logic)) (bindings : Variables) : Prop where
  literals : e.ShortLiterals
  calls : 8 + e.expr.callsNeeded ≤ Run.callLimit
  result : ∀ n, e.value bindings = some n → n.natAbs < Number.integerLimit

instance (e : Formula (some .logic)) (bindings : Variables) : Decidable (e.Fits bindings) :=
  decidable_of_iff (e.ShortLiterals ∧ 8 + e.expr.callsNeeded ≤ Run.callLimit ∧
      ∀ n ∈ e.value bindings, n.natAbs < Number.integerLimit)
    ⟨fun ⟨literals, calls, result⟩ => ⟨literals, calls, result⟩,
     fun ⟨literals, calls, result⟩ => ⟨literals, calls, result⟩⟩

theorem Value.classify_int {text : Text} {n : Int} (read : Number.parseInt text = .ok (some n)) :
    Value.classify text = .ok (.int n) := by
  simp [Value.classify, read]

namespace Formula

variable {bound : Option Level}

theorem value_numeral {e : Formula bound} {numeral : Numeral} (alone : e.numeral? = some numeral)
    (bindings : Variables) :
    e.value bindings = some numeral.number := by
  induction e with
  | literal other =>
      cases alone
      rfl
  | plain inner ih => exact ih alone
  | name | group | signed | binary => cases alone

theorem short_numeral {e : Formula bound} {numeral : Numeral} (alone : e.numeral? = some numeral)
    (short : e.ShortLiterals) : numeral.digits.length ≤ Number.mostIntegerDigits := by
  induction e with
  | literal other =>
      cases alone
      exact short
  | plain inner ih => exact ih alone short
  | name | group | signed | binary => cases alone

theorem valueOf_fits {env : Env σ} (alone : env.services = {}) {session : Session σ} {bindings : Variables}
    (agrees : Agrees session bindings) (inLine : session.depth = 8) {e : Formula (some .logic)}
    (fits : e.Fits bindings) :
    match e.value bindings with
    | some n => ∃ value shown, Expr.valueOf env e.text session = .ok value session ∧ value.render = .ok shown ∧
        Number.isNumber shown ∧ Value.classify shown = .ok (.int n)
    | none => ∃ error, Expr.valueOf env e.text session = .error (.error error) session := by
  cases literal : e.numeral? with
  | some numeral =>
      have short := short_numeral literal fits.literals
      rw [value_numeral literal]
      exact ⟨_, _, valueOf_numeral literal env session, rfl, numeral.isNumber false,
        Value.classify_int (numeral.parseInt false short)⟩
  | none =>
      have evaluated := valueOf_compound literal env session
      rw [if_neg (by rw [inLine]; exact Nat.not_lt.mpr fits.calls)] at evaluated
      have given : Gives (Expr.valueOf env e.text) session (e.value bindings) :=
        Gives.of_eq evaluated (e.eval_tree alone agrees fits.literals).2
      cases result : e.value bindings with
      | none =>
          rw [result] at given
          exact given
      | some n =>
          rw [result] at given
          have small := fits.result n result
          have rendered : (Value.int n).render = .ok (Text.ofInt n) := by
            rw [Value.render, Number.integerText, if_pos small]
          exact ⟨_, _, given, rendered, Text.ofInt_isNumber n, Value.classify_int (Text.parseInt_ofInt small)⟩

end Formula

namespace AtRest

variable {env : Env σ} {session : Session σ} {bindings : Variables}

theorem after (idle : AtRest session bindings) (text : Text) {store : Store} {diagnostics : Array Text}
    {next : Variables}
    (flat : store.Flat)
    (reads : ∀ identifier : Identifier,
      match next identifier.text with
      | some n => ∃ stored, store.lookup identifier.text = some stored ∧ Value.classify stored = .ok (.int n)
      | none => store.lookup identifier.text = none) :
    AtRest { session.inLine text with store, diagnostics, depth := 0 } next where
  noBuffers := idle.noBuffers
  reads := reads
  running := idle.running
  top := idle.top
  shallow := rfl
  noLoops := idle.noLoops
  noConditions := idle.noConditions
  noAliases := idle.noAliases
  flat := flat

theorem parseLine_eq (idle : AtRest session bindings) (alone : env.services = {}) (line : Assignment) (depth : Nat) :
    Interpreter.parseLine env (depth + 1) line.text session =
      Interpreter.answered env (Interpreter.placed line.text
        ((do if !(← Command.assign env line.text) then Command.dispatch env line.text)
          (session.inLine line.text))) := by
  have ran := @Assignment.execLine_eq σ line env (session.inLine line.text) depth idle.noLoops idle.noConditions
    idle.noAliases
  rw [Interpreter.parseLine_eq alone _ _ idle.running idle.top idle.shallow, ran]

theorem parseLine_ok (idle : AtRest session bindings) (alone : env.services = {}) (line : Assignment) (depth : Nat)
    {after : Session σ} (assigned : Command.assign env line.text (session.inLine line.text) = .ok true after) :
    Interpreter.parseLine env (depth + 1) line.text session = .ok true { after with depth := 0 } := by
  rw [idle.parseLine_eq alone]
  simp only [bind, EStateM.bind, assigned]
  rfl

theorem parseLine_error (idle : AtRest session bindings) (alone : env.services = {}) (line : Assignment) (depth : Nat)
    {exit : Exit} (failed : Command.assign env line.text (session.inLine line.text) =
      .error exit (session.inLine line.text)) :
    Interpreter.parseLine env (depth + 1) line.text session =
      Interpreter.answered env (Interpreter.placed line.text (.error exit (session.inLine line.text))) := by
  rw [idle.parseLine_eq alone]
  simp only [bind, EStateM.bind, failed]

theorem stores (idle : AtRest session bindings) (alone : env.services = {}) (line : Assignment) (depth : Nat)
    (fits : line.formula.Fits bindings) {n : Int} (computed : line.formula.value bindings = some n) :
    ∃ after stored, Interpreter.parseLine env (depth + 1) line.text session = .ok true after ∧
      after.store.get? line.target.text = .ok (some stored) ∧ Value.classify stored = .ok (.int n) ∧
      (∀ other, other ≠ line.target.text → after.store.lookup other = session.store.lookup other) ∧
      AtRest after (bindings.set line.target.text n) := by
  have agrees : Agrees (session.inLine line.text) bindings := ⟨idle.noBuffers, idle.reads⟩
  have given := Formula.valueOf_fits alone agrees rfl fits
  rw [computed] at given
  obtain ⟨value, shown, evaluated, rendered, number, classified⟩ := given
  obtain ⟨flat, lookup⟩ := idle.flat.set line.target shown
  have reads : ∀ identifier : Identifier,
      match bindings.set line.target.text n identifier.text with
      | some m => ∃ stored, (session.store.set line.target.text shown).lookup identifier.text = some stored ∧
          Value.classify stored = .ok (.int m)
      | none => (session.store.set line.target.text shown).lookup identifier.text = none := by
    intro identifier
    rw [lookup, Variables.set]
    by_cases same : identifier.text = line.target.text
    · simp only [if_pos same]
      exact ⟨shown, rfl, classified⟩
    · simp only [if_neg same]
      exact idle.reads identifier
  refine ⟨_, shown, idle.parseLine_ok alone line depth (line.assign_ok evaluated rendered number), ?_, classified, ?_,
    idle.after line.text flat reads⟩
  · rw [line.target.bare.plain.get?]
    exact congrArg Except.ok ((lookup _).trans (if_pos rfl))
  · intro other different
    exact (lookup other).trans (if_neg different)

theorem refuses (idle : AtRest session bindings) (alone : env.services = {}) (line : Assignment) (depth : Nat)
    (fits : line.formula.Fits bindings) (undefined : line.formula.value bindings = none) :
    ∃ after, Interpreter.parseLine env (depth + 1) line.text session = .ok false after ∧
      after.store = session.store ∧ AtRest after bindings := by
  have agrees : Agrees (session.inLine line.text) bindings := ⟨idle.noBuffers, idle.reads⟩
  have given := Formula.valueOf_fits alone agrees rfl fits
  rw [undefined] at given
  obtain ⟨error, failed⟩ := given
  have ended := idle.parseLine_error alone line depth (line.assign_error failed)
  obtain ⟨diagnostics, reported⟩ := Report.add_eq env
    (Interpreter.locate (session.inLine line.text).frame line.text error) { session.inLine line.text with depth := 0 }
  refine ⟨{ session.inLine line.text with depth := 0, diagnostics }, ?_, rfl, idle.after line.text idle.flat idle.reads⟩
  rw [ended]
  simp only [Interpreter.placed, Interpreter.answered, bind, EStateM.bind, reported]
  rfl

end AtRest

namespace Assignment

/-- Every line of a program fits, given the variables before it. -/
def AllFit : Variables → List Assignment → Prop
  | _, [] => True
  | bindings, line :: rest => line.formula.Fits bindings ∧ AllFit (line.next bindings) rest

instance decidableAllFit : (bindings : Variables) → (lines : List Assignment) → Decidable (AllFit bindings lines)
  | _, [] => .isTrue trivial
  | bindings, line :: rest =>
    have := decidableAllFit (line.next bindings) rest
    inferInstanceAs (Decidable (_ ∧ _))

/-- A session computes a program line by line: a line answers yes just if its formula has a value; then its name reads
as that integer and every other variable as before, and else all variables are as before. -/
def Computes (env : Env σ) (depth : Nat) : Session σ → Variables → List Assignment → Prop
  | _, _, [] => True
  | session, bindings, line :: rest =>
    ∃ answer after, Interpreter.parseLine env depth line.text session = .ok answer after ∧
      (match line.formula.value bindings with
        | some n => answer = true ∧
            (∃ stored, after.store.get? line.target.text = .ok (some stored) ∧ Value.classify stored = .ok (.int n)) ∧
            ∀ other, other ≠ line.target.text → after.store.lookup other = session.store.lookup other
        | none => answer = false ∧ after.store = session.store) ∧
      Computes env depth after (line.next bindings) rest

theorem computes_of_rest {env : Env σ} (alone : env.services = {}) (depth : Nat) {session : Session σ}
    {bindings : Variables} (idle : AtRest session bindings) (lines : List Assignment) (fits : AllFit bindings lines) :
    Computes env (depth + 1) session bindings lines := by
  induction lines generalizing session bindings with
  | nil => trivial
  | cons line rest ih =>
      obtain ⟨fit, others⟩ := fits
      cases computed : line.formula.value bindings with
      | some n =>
          obtain ⟨after, stored, ran, read, classified, kept, next⟩ := idle.stores alone line depth fit computed
          have moved : line.next bindings = bindings.set line.target.text n := by rw [Assignment.next, computed]
          refine ⟨true, after, ran, ?_, ?_⟩
          · rw [computed]
            exact ⟨rfl, ⟨stored, read, classified⟩, kept⟩
          · rw [moved] at others ⊢
            exact ih next others
      | none =>
          obtain ⟨after, ran, kept, next⟩ := idle.refuses alone line depth fit computed
          have stayed : line.next bindings = bindings := by rw [Assignment.next, computed]
          refine ⟨false, after, ran, ?_, ?_⟩
          · rw [computed]
            exact ⟨rfl, kept⟩
          · rw [stayed] at others ⊢
            exact ih next others

theorem atRest_start (options : Options) (host : σ) (files : FileTree) :
    AtRest (Session.start options host files) fun _ => none := by
  have missing : ∀ identifier : Identifier,
      (Session.start options host files).store.globals.get? identifier.text = none := by
    intro identifier
    have other {name : Text} (reserved : name ∈ Names.reserved) (small : Text.lower name = name) :
        identifier.text ≠ name := by
      intro same
      apply identifier.unreserved
      rwa [same, small]
    have input := @other "standard_input" (by simp [Names.reserved]) (by decide)
    have only := @other "parse_only" (by simp [Names.reserved]) (by decide)
    simp only [Session.start, Scope.get?, List.lookup_cons, beq_eq_false_iff_ne.mpr input, beq_eq_false_iff_ne.mpr only]
    rfl
  refine { noBuffers := rfl, running := rfl, top := rfl, shallow := rfl, noLoops := rfl, noConditions := rfl,
           noAliases := rfl, reads := ?_, flat := ⟨rfl, ⟨_, rfl⟩, missing⟩ }
  intro identifier
  exact missing identifier

/-- Integer programs compute standard arithmetic on a new session without a host. -/
theorem start_computes {env : Env σ} (alone : env.services = {}) (host : σ) (files : FileTree) (depth : Nat)
    (lines : List Assignment) (fits : AllFit (fun _ => none) lines) :
    Computes env (depth + 1) (Session.start env.options host files) (fun _ => none) lines :=
  computes_of_rest alone depth (atRest_start env.options host files) lines fits

def x : Identifier where
  text := "x"
  starts := by decide
  marks := by decide
  free := by decide +kernel
  noCommand := by decide +kernel
  noBlock := by decide +kernel

def y : Identifier where
  text := "y"
  starts := by decide
  marks := by decide
  free := by decide +kernel
  noCommand := by decide +kernel
  noBlock := by decide +kernel

def atom (e : Formula none) : Formula (some .logic) := .plain (.plain (.plain (.plain e)))

/-- `x = 7`, then `y = - ( 2 + - - x ) * 5 / 2 - - x`, then `x = y / ( x - 7 )`, and then `y = x && y < 0`. -/
def sampleProgram : List Assignment :=
  let number (n : Nat) : Formula none := .literal (.ofNat n)
  let addition := BinaryOp.arithmetic .add
  let difference := BinaryOp.arithmetic .sub
  [⟨x, atom (number 7)⟩,
   ⟨y, .plain (.plain (.binary difference
      (.plain (.binary (.arithmetic .div)
        (.binary (.arithmetic .mul)
          (.plain (.signed .minus (.group (.plain (.plain (.binary addition (.plain (.plain (number 2)))
            (.plain (.signed .minus (.signed .minus (.name x))))))))))
          (number 5))
        (number 2)))
      (.plain (.signed .minus (.name x)))))⟩,
   ⟨x, .plain (.plain (.plain (.binary (.arithmetic .div) (.plain (.name y))
      (.group (.plain (.plain (.binary difference (.plain (.plain (.name x))) (.plain (number 7)))))))))⟩,
   ⟨y, .binary (.connective .both) (.plain (.plain (.plain (.plain (.name x)))))
      (.binary (.comparison .less) (.plain (.plain (.plain (.name y)))) (.plain (.plain (number 0))))⟩]

theorem sampleProgram_computes :
    AllFit (fun _ => none) sampleProgram ∧
      Computes ({} : Env Unit) 1 (Session.start {} ()) (fun _ => none) sampleProgram :=
  ⟨by decide +kernel, start_computes rfl () {} 0 sampleProgram (by decide +kernel)⟩

/-- A line that leaves otherwise than with a script error gives no answer. -/
theorem not_computes {env : Env σ} {depth : Nat} {session after : Session σ} {line : Assignment} {exit : Exit}
    (left : Interpreter.parseLine env depth line.text session = .error exit after) (bindings : Variables)
    (rest : List Assignment) : ¬Computes env depth session bindings (line :: rest) := by
  rintro ⟨answer, ended, ran, -⟩
  rw [left] at ran
  cases ran

def powerOfTen (zeros : Nat) : Numeral where
  figures := '1' :: List.replicate zeros '0'
  filled := by simp
  decimal := by simp

theorem powerOfTen_number (zeros : Nat) : (powerOfTen zeros).number = 10 ^ zeros := by
  simp [powerOfTen, Numeral.number, Nat.ofDigitChars_cons]

theorem powerOfTen_length (zeros : Nat) : (powerOfTen zeros).digits.length = zeros + 1 := by
  rw [Numeral.digits, List.length_map]
  simp [powerOfTen]

def sumLine (zeros : Nat) : Assignment :=
  ⟨x, .plain (.plain (.binary (.arithmetic .add) (.plain (.plain (.literal (powerOfTen zeros))))
    (.plain (.literal (.ofNat 0)))))⟩

def squareLine (zeros : Nat) : Assignment :=
  ⟨x, .plain (.plain (.plain (.binary (.arithmetic .mul) (.plain (.literal (powerOfTen zeros)))
    (.literal (powerOfTen zeros)))))⟩

def nested : Nat → Formula (some .logic)
  | 0 => atom (.literal (.ofNat 1))
  | depth + 1 => atom (.group (nested depth))

theorem nested_calls (depth : Nat) : 5 * depth ≤ (nested depth).expr.readingDepth := by
  induction depth with
  | zero => exact Nat.zero_le _
  | succ depth ih =>
      have step : (nested (depth + 1)).expr.readingDepth = 5 + (nested depth).expr.readingDepth := rfl
      omega

theorem sumLine_leaves {zeros : Nat} (long : Number.mostIntegerDigits ≤ zeros) {session : Session Unit}
    (shallow : session.depth = 8) :
    Expr.valueOf {} (sumLine zeros).formula.text session = .error (.fault .digits) session := by
  have evaluated := @Formula.valueOf_compound Unit (sumLine zeros).formula rfl {} session
  have calls : (sumLine zeros).formula.expr.callsNeeded = 10 := rfl
  rw [shallow, calls, if_neg (by decide)] at evaluated
  have read := (powerOfTen zeros).evalTerm {} session
  rw [powerOfTen_length, if_pos (Nat.lt_succ_of_le long)] at read
  refine evaluated.trans ?_
  change EStateM.bind (Expr.evalTerm {} (powerOfTen zeros).digits) _ session = _
  rw [EStateM.bind, read]

theorem squareLine_leaves {zeros : Nat} (short : zeros + 1 ≤ Number.mostIntegerDigits)
    (long : Number.mostIntegerDigits ≤ zeros + zeros) {session : Session Unit} (shallow : session.depth = 8)
    (agrees : Agrees session fun _ => none) :
    Command.assign {} (squareLine zeros).text session = .error (.fault .digits) session := by
  have evaluated := @Formula.valueOf_compound Unit (squareLine zeros).formula rfl {} session
  have calls : (squareLine zeros).formula.expr.callsNeeded = 10 := rfl
  rw [shallow, calls, if_neg (by decide)] at evaluated
  have literal : (powerOfTen zeros).digits.length ≤ Number.mostIntegerDigits := by rwa [powerOfTen_length]
  have given := (@Formula.eval_tree Unit _ {} rfl session _ agrees (squareLine zeros).formula ⟨literal, literal⟩).2
  refine (squareLine zeros).assign_digits (evaluated.trans given) ?_
  have squared : ((powerOfTen zeros).number * (powerOfTen zeros).number : Int).natAbs =
      Number.tenTo (zeros + zeros) := by
    rw [Int.natAbs_mul, Int.natAbs_natCast, powerOfTen_number, ← Nat.pow_add]
    rfl
  rw [squared, Number.integerLimit_eq]
  exact Nat.not_lt.mpr (Number.tenTo_le long)

theorem nested_leaves {depth : Nat} (deep : 200 ≤ depth) {session : Session Unit} (shallow : session.depth = 8) :
    Expr.valueOf {} (nested depth).text session = .error .exhausted session := by
  have compound : (nested depth).numeral? = none := by
    cases depth with
    | zero => omega
    | succ depth => rfl
  have calls := nested_calls depth
  have tooDeep : Run.callLimit < session.depth + (nested depth).expr.callsNeeded := by
    simp only [Run.callLimit, Expr.callsNeeded, shallow]
    omega
  rw [Formula.valueOf_compound compound, if_pos tooDeep]

/-- Each of the limits is needed: a literal or a result of 4301 digits and parentheses nested 300 deep make a line
leave without an answer. -/
theorem limits_not_computes :
    ¬Computes ({} : Env Unit) 1 (Session.start {} ()) (fun _ => none) [sumLine Number.mostIntegerDigits] ∧
      ¬Computes ({} : Env Unit) 1 (Session.start {} ()) (fun _ => none) [squareLine 2150] ∧
      ¬Computes ({} : Env Unit) 1 (Session.start {} ()) (fun _ => none) [⟨x, nested 300⟩] := by
  have idle := atRest_start {} () {}
  have agrees (text : Text) : Agrees ((Session.start {} () : Session Unit).inLine text) fun _ => none :=
    ⟨idle.noBuffers, idle.reads⟩
  refine ⟨?_, ?_, ?_⟩
  · exact not_computes (idle.parseLine_error rfl _ 0
      ((sumLine _).assign_error (sumLine_leaves (Nat.le_refl _) rfl))) _ _
  · have short : 2150 + 1 ≤ Number.mostIntegerDigits := by
      simp only [Number.mostIntegerDigits]
      omega
    have long : Number.mostIntegerDigits ≤ 2150 + 2150 := by
      simp only [Number.mostIntegerDigits]
      omega
    exact not_computes (idle.parseLine_error rfl _ 0 (squareLine_leaves short long rfl (agrees _))) _ _
  · exact not_computes (idle.parseLine_error rfl _ 0
      ((⟨x, nested 300⟩ : Assignment).assign_error (nested_leaves (by decide) rfl))) _ _

end Assignment

end CommandScript
