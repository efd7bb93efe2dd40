import CommandScript.Proofs.Brackets.Values
import CommandScript.Proofs.Integers.Running

/-! What `defined` says of a term. The look-up of a name is written twice, for the value of a term and for
`defined`; the two go through the same places, and the host is asked once in either, if its resolvers keep to
their answers. -/

namespace CommandScript

variable {σ : Type}

theorem Text.mem_trim {c : CodePoint} {s : Text} (member : c ∈ trim s) : c ∈ s := by
  have left : c ∈ (trimLeft s).reverse :=
    (List.dropWhile_sublist isBlank).subset (List.mem_reverse.mp member)
  exact (List.dropWhile_sublist isBlank).subset (List.mem_reverse.mp left)

theorem Lexeme.scan_plain {s name : Text} {index : Option Text} {lexemes : List Lexeme} (scanned : scan s = .ok lexemes)
    (member : term name index ∈ lexemes) : PlainName name := by
  have cut {c : CodePoint} (rest : Text) (noBracket : c ≠ '[') : PlainName
      (Text.trim (c :: (cutTerm ' ' c rest).1)) := by
    refine ⟨fun inside => ?_, Text.trim_trim _⟩
    rcases List.mem_cons.mp (Text.mem_trim inside) with same | later
    · exact noBracket same.symm
    · exact Stops.notMem_cutTerm (.inr (.inr rfl) : Stops '[') ' ' c rest later
  fun_induction scan s generalizing lexemes
  case case1 =>
      cases scanned
      cases member
  case case2 c rest blank ih => exact ih scanned member
  case case3 c rest visible op pair ih =>
      obtain ⟨others, later, rfl⟩ := map_cons_eq_ok.mp scanned
      exact ih later (by simpa using member)
  case case4 => cases scanned
  case case5 c rest visible noPair quote opens body after found ih =>
      obtain ⟨others, later, rfl⟩ := map_cons_eq_ok.mp scanned
      exact ih later (by simpa using member)
  case case6 => cases scanned
  case case7 rest inner filled visible noPair noQuote ih =>
      obtain ⟨others, later, rfl⟩ := map_cons_eq_ok.mp scanned
      exact ih later (by simpa using member)
  case case8 c rest visible noPair noQuote noBracket op single ih =>
      obtain ⟨others, later, rfl⟩ := map_cons_eq_ok.mp scanned
      exact ih later (by simpa using member)
  case case9 => cases scanned
  case case10 c rest visible noPair noQuote noBracket noOperator found after follows inner filled ih =>
      obtain ⟨others, later, rfl⟩ := map_cons_eq_ok.mp scanned
      rcases List.mem_cons.mp member with same | inside
      · rw [(Lexeme.term.inj same).1]
        exact cut rest noBracket
      · exact ih later inside
  case case11 c rest visible noPair noQuote noBracket noOperator found noIndex ih =>
      obtain ⟨others, later, rfl⟩ := map_cons_eq_ok.mp scanned
      rcases List.mem_cons.mp member with same | inside
      · rw [(Lexeme.term.inj same).1]
        exact cut rest noBracket
      · exact ih later inside

/-- A text that the lexer reads as one term without an index. -/
structure IsTerm (name : Text) : Prop where
  scanned : Lexeme.scan name = .ok [.term name none]
  balanced : Text.checkBalance name = .ok ()

namespace IsTerm

variable {name : Text} (bare : IsTerm name)

include bare

theorem plain : PlainName name := Lexeme.scan_plain bare.scanned List.mem_cons_self

theorem filled : name ≠ [] := (Lexeme.scan_regular bare.scanned _ List.mem_cons_self).filled rfl

theorem parsed : Expr.parse name = .ok (.term name) :=
  Expr.parse_steps.mpr ⟨_, _, bare.balanced, bare.scanned, rfl, .term bare.filled, .term name⟩

theorem even : Text.Even name := ⟨Expr.parse_closed bare.parsed, Expr.parse_counted bare.parsed⟩

theorem parsed_defined :
    Expr.parse ("defined(" ++ (name ++ ")")) = .ok (.call "defined" [.term name]) := by
  have scanned : Lexeme.scan ("defined(" ++ (name ++ ")")) =
      .ok [.term "defined" none, .operator .openParen "(", .term name none, .operator .closeParen ")"] := by
    have closing : Lexeme.scan (name ++ ([')'] : Text)) = .ok [.term name none, .operator .closeParen ")"] := by
      rw [Lexeme.scan_append (.inr (.inl rfl)) bare.scanned (.inl (by rintro _ ⟨⟩; rfl)) nofun, Lexeme.scan_close,
        Lexeme.scan]
      rfl
    have dotted := @Lexeme.scan_dotted "defined" (name ++ ([')'] : Text)) (by decide)
      (List.all_eq_true.mp (by decide)) '(' (.inl rfl)
    have alone : (name ++ ([')'] : Text)).head?.bind (Operator.ofPair? '(') = none := by cases name <;> rfl
    rw [if_neg (by decide), Lexeme.scan_mark (by decide) (by decide) (by decide) rfl alone, closing] at dotted
    exact dotted
  refine Expr.parse_steps.mpr ⟨_, _, ?_, scanned, rfl, .call (by decide) ?_, ?_⟩
  · have opening : Text.Closed "defined(" := by decide +kernel
    have spans : Span.scan ("defined(" : Text) = ("defined(" : Text).map Span.plain := by cbv
    have front (rest : List Span) :
        Text.countMarks 0 0 (("defined(" : Text).map Span.plain ++ rest) = Text.countMarks 1 0 rest := rfl
    rw [Text.checkBalance, opening.scan_append, bare.even.1.scan_append, spans, front, bare.even.countMarks]
    cbv
  · intro arg member
    rw [List.mem_singleton.mp member]
    exact .term bare.filled
  · exact .call "defined" (.single rfl) (.single rfl) (.one (.term name))

end IsTerm

namespace Number

theorem parseInt_noNumber {text : Text} (noNumber : isNumber text = false) : parseInt text = .ok none := by
  unfold isNumber parseDecimal at noNumber
  unfold parseInt
  generalize Number.cutSign (Text.trim text) = cut at noNumber ⊢
  obtain ⟨negative, digits⟩ := cut
  dsimp only at noNumber ⊢
  split
  · rfl
  · rename_i number
    simp only [not_or, Bool.not_eq_true', Bool.not_eq_false] at number
    have decimal := List.all_eq_true.mp number.2
    have whole : cutDigits digits = (digits, []) :=
      Prod.ext (List.takeWhile_eq_self_iff.mpr decimal) (List.dropWhile_eq_nil_iff.mpr decimal)
    simp [whole, number.1, parseExponent, guard] at noNumber

end Number

def Time.InCalendar (text : Text) : Prop :=
  ∀ stamp, readStamp? (Text.trim text) = some stamp → stamp.inRange = true → 1 ≤ stamp.year

theorem parseDouble_inCalendar {name : Text} (plain : PlainName name) (years : Time.InCalendar name) :
    ∃ found, parseDouble name = .ok found := by
  rw [parseDouble, plain.trimmed]
  split
  · exact ⟨_, rfl⟩
  split
  · exact ⟨_, rfl⟩
  rw [Time.parseTime]
  split
  · exact ⟨_, rfl⟩
  · rename_i stamp read
    obtain ⟨known, inRange⟩ := Option.filter_eq_some_iff.mp read
    have positive := years stamp known inRange
    rw [if_neg (by omega)]
    exact ⟨_, rfl⟩

namespace Expr

def held? (session : Session σ) (name : Text) : Option (Except Fault Value) :=
  match parseDouble name with
  | .ok (some x) => some (.ok (.real x))
  | _ =>
    match session.store.lookup name with
    | some stored => some (Value.classify stored)
    | none => (session.buffer? name).map fun buffer => .ok (.buffer buffer)

variable {env : Env σ} {session : Session σ} {name : Text}

theorem isDefined_held (plain : PlainName name) (years : Time.InCalendar name) :
    Builtin.isDefined env name session =
      match held? session name with
      | some _ => .ok true session
      | none => (do return (← Builtin.resolve env name).ok : Run σ Bool) session := by
  obtain ⟨found, double⟩ := parseDouble_inCalendar plain years
  simp only [Builtin.isDefined, held?, double, Run.ofFault, Run.ofExcept, Run.readVariable, Run.ofFailure, bind,
    EStateM.bind, pure, EStateM.pure]
  cases found with
  | some x => rfl
  | none =>
      simp only [Option.isSome_none, Bool.false_eq_true, if_false, EStateM.bind, EStateM.get_apply, plain.get?]
      cases session.store.lookup name with
      | some stored => rfl
      | none =>
          simp only [Option.isSome_none, Bool.false_eq_true, if_false, EStateM.bind, EStateM.pure, EStateM.get_apply]
          cases session.buffer? name with
          | some buffer => rfl
          | none => rfl

theorem evalTerm_held (plain : PlainName name) (years : Time.InCalendar name) (noNumber : Number.isNumber name = false)
    (noTruth : ¬(Text.lower name = "true" ∨ Text.lower name = "false")) :
    evalTerm env name session =
      match held? session name with
      | some result => Run.ofFault result session
      | none => external env name session := by
  obtain ⟨found, double⟩ := parseDouble_inCalendar plain years
  simp only [evalTerm, if_neg noTruth, Number.parseInt_noNumber noNumber, held?, double, Run.ofFault, Run.ofExcept,
    Run.readVariable, Run.ofFailure, bind, EStateM.bind, pure, EStateM.pure]
  cases found with
  | some x => rfl
  | none =>
      simp only [EStateM.bind, EStateM.get_apply, plain.get?]
      cases session.store.lookup name with
      | some stored => rfl
      | none =>
          simp only [EStateM.bind, EStateM.pure, EStateM.get_apply]
          cases session.buffer? name with
          | some buffer => rfl
          | none => rfl

end Expr

def HostM.Settled (request : HostM σ Outcome) (outcome : Outcome) : Prop :=
  ∀ host, ∃ later, request host = .ok outcome later

/-- The resolvers never fail, and give each name the same answer every time. -/
def Services.Steady (services : Services σ) : Prop :=
  ∀ resolver ∈ services.resolvers, ∀ name, ∃ outcome, HostM.Settled (resolver.resolve name) outcome

theorem Services.askFirst_settled {requests : List (HostM σ Outcome)}
    (settled : ∀ request ∈ requests, ∃ outcome, HostM.Settled request outcome) :
    ∃ outcome, HostM.Settled (askFirst requests) outcome := by
  induction requests with
  | nil => exact ⟨_, fun host => ⟨host, rfl⟩⟩
  | cons request rest ih =>
      obtain ⟨outcome, first⟩ := settled request List.mem_cons_self
      obtain ⟨other, others⟩ := ih fun request member => settled request (List.mem_cons_of_mem _ member)
      by_cases missing : outcome.answer = .notFound
      · refine ⟨other, fun host => ?_⟩
        obtain ⟨middle, asked⟩ := first host
        obtain ⟨later, answered⟩ := others middle
        refine ⟨later, ?_⟩
        simp only [askFirst, bind, EStateM.bind, asked, if_pos missing, answered]
      · refine ⟨outcome, fun host => ?_⟩
        obtain ⟨middle, asked⟩ := first host
        refine ⟨middle, ?_⟩
        simp only [askFirst, bind, EStateM.bind, asked, if_neg missing]
        rfl

namespace Builtin

variable {env : Env σ}

theorem resolve_settled (steady : env.services.Steady) (name : Text) :
    ∃ outcome, ∀ session, ∃ host, resolve env name session = .ok outcome { session with host } := by
  obtain ⟨outcome, settled⟩ : ∃ outcome, HostM.Settled (env.services.resolve name) outcome := by
    refine Services.askFirst_settled fun request member => ?_
    obtain ⟨resolver, among, rfl⟩ := List.mem_map.mp member
    exact steady resolver among name
  refine ⟨outcome, fun session => ?_⟩
  obtain ⟨later, answered⟩ := settled session.host
  refine ⟨later, ?_⟩
  simp only [resolve, Run.askOr, Run.ask, bind, EStateM.bind, answered]
  rfl

end Builtin

namespace Expr

variable {env : Env σ} {session : Session σ} {name : Text}

theorem external_settled {outcome : Outcome} {after : Session σ}
    (answered : Builtin.resolve env name session = .ok outcome after) :
    if outcome.ok then external env name session = Run.ofFault outcome.toValue after
    else ∃ error, external env name session = .error (.error error) after := by
  by_cases ok : outcome.ok = true
  · have found : outcome.answer ≠ .notFound := by
      intro missing
      rw [Outcome.ok, missing] at ok
      cases ok
    rw [if_pos ok]
    simp only [external, bind, EStateM.bind, answered, if_neg found, ok]
    rfl
  · rw [if_neg ok]
    rw [Bool.not_eq_true] at ok
    by_cases missing : outcome.answer = .notFound
    · refine ⟨{ cause := .store (.undefined name) }, ?_⟩
      simp only [external, bind, EStateM.bind, answered, if_pos missing]
      rfl
    · refine ⟨{ cause := .eval (.unresolved (Text.orElse outcome.value ("cannot interpret: " ++ name))) }, ?_⟩
      simp only [external, bind, EStateM.bind, answered, if_neg missing, ok]
      rfl

theorem ofFault_noError (result : Except Fault Value) (error : ScriptError) (later : Session σ) :
    Run.ofFault result session ≠ .error (.error error) later := by
  cases result <;> nofun

/-- What `defined` says of a term is whether its evaluation is a script error. -/
theorem isDefined_agrees (plain : PlainName name) (years : Time.InCalendar name) (steady : env.services.Steady)
    (noNumber : Number.isNumber name = false) (noTruth : ¬(Text.lower name = "true" ∨ Text.lower name = "false")) :
    ∃ flag after, Builtin.isDefined env name session = .ok flag after ∧
      (flag = false ↔ ∃ error later, evalTerm env name session = .error (.error error) later) := by
  rw [isDefined_held plain years, evalTerm_held plain years noNumber noTruth]
  -- the two look in the same places before they ask the host
  cases held? session name with
  | some result =>
      refine ⟨true, session, rfl, nofun, ?_⟩
      rintro ⟨error, later, refused⟩
      exact absurd refused (ofFault_noError result error later)
  | none =>
      obtain ⟨outcome, settled⟩ := Builtin.resolve_settled steady name
      obtain ⟨host, answered⟩ := settled session
      refine ⟨outcome.ok, { session with host }, ?_, ?_⟩
      · simp only [bind, EStateM.bind, answered]
        rfl
      · have asked := external_settled answered
        split at asked
        · rename_i ok
          rw [asked, ok]
          refine ⟨nofun, ?_⟩
          rintro ⟨error, later, refused⟩
          exact absurd refused (ofFault_noError _ error later)
        · rename_i refused
          obtain ⟨error, same⟩ := asked
          exact ⟨fun _ => ⟨error, _, same⟩, fun _ => by simpa using refused⟩

theorem held_number (plain : PlainName name) (number : Number.isNumber name = true) :
    ∃ result, held? session name = some result := by
  obtain ⟨decimal, read⟩ := Option.isSome_iff_exists.mp number
  have double : parseDouble name = .ok (some decimal.toFloat) := by simp only [parseDouble, plain.trimmed, read]
  exact ⟨_, by rw [held?, double]⟩

theorem valueOf_defined (bare : IsTerm name) {flag : Bool} {after : Session σ}
    (room : session.depth + (Expr.call "defined" [.term name]).callsNeeded ≤ Run.callLimit)
    (asked : Builtin.isDefined env name session = .ok flag after) :
    valueOf env ("defined(" ++ (name ++ ")")) session = .ok (ofBool flag) after := by
  have compound : Compound ("defined(" ++ (name ++ ")")) := @compound_mark '(' (.inl rfl) "defined" (name ++ ")")
  have trimmed : Text.trim ("defined(" ++ (name ++ ")")) = "defined(" ++ (name ++ ")") := by
    have around := @Text.trim_around '(' rfl "defined" (name ++ ")")
    have right := @Text.trimRight_after ')' rfl name []
    rw [show name ++ (")" : Text) = name ++ [.char ')'] from rfl, right] at around
    exact around
  have asks : askedName? "defined" [.term name] = some name := rfl
  have called : Builtin.invoke env "defined" [.text name] = Builtin.run env .defined [.text name] := rfl
  refine compound.valueOf_eq_ok.mpr ⟨_, by rw [trimmed, bare.parsed_defined], room, ?_⟩
  rw [eval, asks]
  simp only [called, Builtin.run, bind, EStateM.bind, asked]
  cases flag <;> rfl

/-- A call of `defined` with a term gives one if the term has a value and zero if its evaluation is a script error, and
never fails. -/
theorem defined_agrees (bare : IsTerm name) (noTruth : ¬(Text.lower name = "true" ∨ Text.lower name = "false"))
    (years : Time.InCalendar name) (steady : env.services.Steady)
    (room : session.depth + (Expr.call "defined" [.term name]).callsNeeded ≤ Run.callLimit) :
    ∃ flag after, valueOf env ("defined(" ++ (name ++ ")")) session = .ok (ofBool flag) after ∧
      ((∃ value later, valueOf env name session = .ok value later) → flag = true) ∧
      (flag = false ↔ ∃ error later, valueOf env name session = .error (.error error) later) := by
  have plain := bare.plain
  cases number : Number.isNumber name with
  | true =>
      obtain ⟨result, held⟩ := @held_number σ session name plain number
      have asked : Builtin.isDefined env name session = .ok true session := by rw [isDefined_held plain years, held]
      have value : valueOf env name session = .ok (.text name) session := by
        simp only [valueOf, plain.trimmed, number, if_true]
        rfl
      refine ⟨true, session, valueOf_defined bare room asked, fun _ => rfl, by simp, ?_⟩
      rintro ⟨error, later, refused⟩
      cases value.symm.trans refused
  | false =>
      have value := valueOf_parsed plain.trimmed number noTruth bare.parsed env session
      have inner : (Expr.term name).callsNeeded ≤ (Expr.call "defined" [.term name]).callsNeeded := by
        simp [callsNeeded, readingDepth, readingDepthAll, evalDepth, evalDepthAll]
      rw [if_neg (by omega), eval] at value
      obtain ⟨flag, after, asked, agrees⟩ := isDefined_agrees plain years steady number noTruth
      refine ⟨flag, after, valueOf_defined bare room asked, ?_, value ▸ agrees⟩
      rintro ⟨result, later, ended⟩
      cases flag with
      | true => rfl
      | false =>
          obtain ⟨error, last, refused⟩ := agrees.mp rfl
          cases (value.symm.trans ended).symm.trans refused

def probed : Env Unit where
  services :=
    { resolvers := [{ resolve := fun name => pure (if name = "probe" then .string "7" else .notFound) }] }

theorem defined_agrees_probed :
    (∃ after, valueOf probed "defined(probe)" (Session.start {} ()) = .ok (.int 1) after) ∧
      ∃ after, valueOf probed "defined(other)" (Session.start {} ()) = .ok (.int 0) after := by
  have steady : probed.services.Steady := by
    intro resolver member name
    obtain rfl := List.mem_singleton.mp member
    exact ⟨_, fun host => ⟨host, rfl⟩⟩
  have years (name : Text) (other : Time.readStamp? (Text.trim name) = none) : Time.InCalendar name := by
    intro stamp known
    cases other.symm.trans known
  have probe : IsTerm "probe" := ⟨by cbv, by cbv⟩
  have other : IsTerm "other" := ⟨by cbv, by cbv⟩
  constructor
  · obtain ⟨flag, after, asked, valued, -⟩ :=
      @defined_agrees Unit probed (Session.start {} ()) "probe" probe (by decide)
      (years _ (by cbv)) steady (by decide)
    have value : valueOf probed "probe" (Session.start {} ()) = .ok (.int 7) (Session.start {} ()) := by
      rw [valueOf_parsed rfl rfl (by decide) probe.parsed, if_neg (by decide)]
      rfl
    obtain rfl := valued ⟨_, _, value⟩
    exact ⟨after, asked⟩
  · obtain ⟨flag, after, asked, -, refused⟩ :=
      @defined_agrees Unit probed (Session.start {} ()) "other" other (by decide)
      (years _ (by cbv)) steady (by decide)
    have error : valueOf probed "other" (Session.start {} ()) =
        .error (.error { cause := .store (.undefined "other") }) (Session.start {} ()) := by
      rw [valueOf_parsed rfl rfl (by decide) other.parsed, if_neg (by decide)]
      rfl
    obtain rfl := refused.mpr ⟨_, _, error⟩
    exact ⟨after, asked⟩

end Expr

end CommandScript
