import CommandScript.Proofs.Integers.Numbers
import CommandScript.Proofs.Integers.Parsing
import CommandScript.Proofs.Unfolding
import CommandScript.Proofs.Variables.Writes

/-! The tree of a formula evaluates to the formula's integer. Where a sum takes in the sign of its right operand,
the sign has left a product; products and quotients change their sign with their first operand, because division
truncates. -/

namespace CommandScript

variable {σ : Type}

/-- A program gives an integer, or fails with a script error if there is none; the session stays as it is. -/
def Gives (program : Run σ Value) (session : Session σ) : Option Int → Prop
  | some n => program session = .ok (.int n) session
  | none => ∃ error, program session = .error (.error error) session

/-- The variables of a session are the integers of a table, and nothing else has a name. -/
structure Agrees (session : Session σ) (bindings : Variables) : Prop where
  noBuffers : session.buffers = []
  reads : ∀ identifier : Identifier,
    match bindings identifier.text with
    | some n => ∃ stored, session.store.lookup identifier.text = some stored ∧ Value.classify stored = .ok (.int n)
    | none => session.store.lookup identifier.text = none

def flipped (flips : Bool) (n : Int) : Int := if flips then -n else n

theorem Comparison.apply_onInts (op : Comparison) (a b : Int) :
    some (if op.onInts a b then 1 else 0) = (BinaryOp.comparison op).apply a b := by
  have atLeast : (b < a ∨ a = b) ↔ a ≥ b := by omega
  have atMost : (a < b ∨ a = b) ↔ a ≤ b := by omega
  cases op <;> simp [onInts, onOrdering, BinaryOp.apply, atLeast, atMost]

namespace Gives

variable {session : Session σ} {left right : Run σ Value}

theorem of_eq {program other : Run σ Value} {result : Option Int} (same : program session = other session)
    (given : Gives other session result) : Gives program session result := by
  cases result with
  | none =>
      obtain ⟨error, failed⟩ := given
      exact ⟨error, same.trans failed⟩
  | some n => exact same.trans given

theorem bind {program : Run σ Value} {result : Option Int} {next : Value → Run σ Value} {f : Int → Option Int}
    (first : Gives program session result) (second : ∀ n, Gives (next (.int n)) session (f n)) :
    Gives (program >>= next) session (result.bind f) := by
  cases result with
  | none =>
      obtain ⟨error, failed⟩ := first
      exact ⟨error, by simp [Bind.bind, EStateM.bind, failed]⟩
  | some n =>
      refine of_eq ?_ (second n)
      simp only [Bind.bind, EStateM.bind, show program session = _ from first]

theorem signed {env : Env σ} {e : Expr} {result : Option Int} (given : Gives (Expr.eval env false e) session result)
    (negated : Bool) : Gives (Expr.eval env false (e.signed negated)) session (result.map (flipped negated)) := by
  cases negated with
  | false =>
      have kept : flipped false = id := rfl
      rw [kept, Option.map_id]
      exact given
  | true =>
      have turned : (flipped true : Int → Int) = fun n => -n := rfl
      rw [turned, Option.map_eq_bind]
      exact given.bind fun n => rfl

theorem combine (op : BinaryOp) (a b : Int) : Gives (Expr.combine op (.int a) (.int b)) session (op.apply a b) := by
  cases op with
  | arithmetic op =>
      cases op with
      | div =>
          by_cases zero : b = 0
          · subst zero
            exact ⟨_, rfl⟩
          · simp only [BinaryOp.apply, if_neg zero, Gives, Expr.combine, Expr.arithmetic, Value.isNumber, Expr.onInts]
            rfl
      | add => rfl
      | sub => rfl
      | mul => rfl
  | comparison op =>
      rw [← op.apply_onInts]
      rfl
  | connective op =>
      cases op with
      | both =>
          have both : (BinaryOp.connective .both).apply a b =
              some (if ((a ≠ 0 : Bool) && (b ≠ 0 : Bool)) = true then 1 else 0) := by simp [BinaryOp.apply]
          rw [both]
          rfl
      | either =>
          have either : (BinaryOp.connective .either).apply a b =
              some (if ((a ≠ 0 : Bool) || (b ≠ 0 : Bool)) = true then 1 else 0) := by simp [BinaryOp.apply]
          rw [either]
          rfl

theorem binary (op : BinaryOp) {a b : Option Int} (first : Gives left session a) (second : Gives right session b) :
    Gives (do let x ← left; let y ← right; Expr.combine op x y) session
      (a.bind fun x => b.bind fun y => op.apply x y) :=
  first.bind fun _ => second.bind fun _ => combine op _ _

end Gives

/-- A name that an expression reads as one term, and that is no number, time or truth value by itself. -/
structure BareName (name : Text) : Prop where
  filled : name ≠ []
  neutral : ∀ c ∈ name,
    Text.isBlank c = false ∧ Operator.ofChar? c = none ∧ Quote.of? c = none ∧ Text.Uncounted c
  noTruth : ¬(Text.lower name = "true" ∨ Text.lower name = "false")
  noInteger : Number.parseInt name = .ok none
  noDouble : parseDouble name = .ok none

namespace BareName

variable {name : Text} (bare : BareName name)

include bare

theorem plain : PlainName name where
  noBracket member := (bare.neutral _ member).2.2.2.2.2.1 rfl
  trimmed := Text.trim_visible (fun c first => (bare.neutral c (List.mem_of_mem_head? first)).1)
    (fun c last => (bare.neutral c (List.mem_of_mem_getLast? last)).1)

variable (env : Env σ) {session : Session σ}

theorem evalTerm_stored {stored : Text} {value : Value} (known : session.store.lookup name = some stored)
    (classified : Value.classify stored = .ok value) : Expr.evalTerm env name session = .ok value session := by
  simp only [Expr.evalTerm, if_neg bare.noTruth, bare.noInteger, bare.noDouble, Run.ofFault, Run.ofExcept,
    Run.readVariable, Run.ofFailure, bind, EStateM.bind, pure, EStateM.pure, EStateM.get_apply, bare.plain.get?, known,
    classified]

theorem evalTerm_missing (missing : session.store.lookup name = none) (noBuffer : session.buffer? name = none) :
    Expr.evalTerm env name session = Expr.external env name session := by
  simp only [Expr.evalTerm, if_neg bare.noTruth, bare.noInteger, bare.noDouble, Run.ofFault, Run.ofExcept,
    Run.readVariable, Run.ofFailure, bind, EStateM.bind, pure, EStateM.pure, EStateM.get_apply, bare.plain.get?,
      missing,
    noBuffer]

end BareName

theorem Identifier.bare (identifier : Identifier) : BareName identifier.text where
  filled := identifier.filled
  neutral c member := by
    have mark := identifier.mark member
    obtain ⟨visible, noOperator, noQuote, -⟩ := isWordMark_neutral mark
    exact ⟨visible, noOperator, noQuote, Text.uncounted_word mark⟩
  noTruth := identifier.notTruth
  noInteger := identifier.parseInt
  noDouble := identifier.parseDouble

theorem Expr.external_alone {env : Env σ} (alone : env.services = {}) (name : Text) (session : Session σ) :
    Expr.external env name session = .error (.error { cause := .store (.undefined name) }) session := by
  have unknown : env.services.resolve name = pure Outcome.notFound := by
    rw [alone]
    rfl
  simp [Expr.external, Builtin.resolve, unknown, Run.askOr, Run.ask, Outcome.notFound, Run.fail, bind,
    EStateM.bind, pure,
    EStateM.pure, EStateM.throw_apply]

theorem Agrees.evalTerm {env : Env σ} (alone : env.services = {}) {session : Session σ} {bindings : Variables}
    (agrees : Agrees session bindings) (identifier : Identifier) :
    Gives (Expr.evalTerm env identifier.text) session (bindings identifier.text) := by
  have reads := agrees.reads identifier
  cases found : bindings identifier.text with
  | some n =>
      rw [found] at reads
      obtain ⟨stored, known, classified⟩ := reads
      exact identifier.bare.evalTerm_stored env known classified
  | none =>
      rw [found] at reads
      have noBuffer : session.buffer? identifier.text = none := by
        rw [Session.buffer?, agrees.noBuffers]
        rfl
      exact ⟨_, (identifier.bare.evalTerm_missing env reads noBuffer).trans (Expr.external_alone alone _ _)⟩

theorem Numeral.evalTerm (numeral : Numeral) (env : Env σ) (session : Session σ) :
    Expr.evalTerm env numeral.digits session =
      if Number.mostIntegerDigits < numeral.digits.length then .error (.fault .digits) session
      else .ok (.int numeral.number) session := by
  have read := numeral.parseInt_withSign false
  simp only [withSign, Bool.false_eq_true, if_false] at read
  simp only [Expr.evalTerm, if_neg numeral.notTruth, read]
  split <;> rfl

namespace Formula

variable {bound : Option Level}

def ShortLiterals {bound : Option Level} : Formula bound → Prop
  | literal numeral => numeral.digits.length ≤ Number.mostIntegerDigits
  | name _ => True
  | group inner => inner.ShortLiterals
  | signed _ operand => operand.ShortLiterals
  | plain inner => inner.ShortLiterals
  | binary _ left right => left.ShortLiterals ∧ right.ShortLiterals

instance decidableShort {bound : Option Level} : (e : Formula bound) → Decidable e.ShortLiterals
  | literal numeral => inferInstanceAs (Decidable (numeral.digits.length ≤ Number.mostIntegerDigits))
  | name _ => .isTrue trivial
  | group inner => decidableShort inner
  | signed _ operand => decidableShort operand
  | plain inner => decidableShort inner
  | binary _ left right =>
    have := decidableShort left
    have := decidableShort right
    inferInstanceAs (Decidable (_ ∧ _))

def Tight (bound : Option Level) : Prop := bound = none ∨ bound = some .product

/-- The integer of a formula when the sign at its front is replaced. -/
def resigned (e : Formula bound) (negated : Bool) (bindings : Variables) : Option Int :=
  (e.value bindings).map (flipped (negated != decide (e.front = some .minus)))

theorem resigned_front (e : Formula bound) (bindings : Variables) :
    e.resigned (e.front = some .minus) bindings = e.value bindings := by
  have kept : flipped false = id := rfl
  simp [resigned, kept]

theorem resigned_signed (sign : Sign) (operand : Formula none) (negated : Bool) (bindings : Variables) :
    (signed sign operand).resigned negated bindings = operand.resigned negated bindings := by
  have turned (n : Int) : flipped (negated != decide (sign.join operand.front = .minus)) (sign.apply n) =
      flipped (negated != decide (operand.front = some .minus)) n := by
    generalize operand.front = front
    cases sign <;> rcases front with _ | _ | _ <;> cases negated <;> simp [flipped, Sign.apply, Sign.join]
  simp [resigned, value, front, Function.comp_def, turned]

end Formula

/-- Products and quotients change their sign with their first operand. -/
theorem BinaryOp.apply_flipped {op : BinaryOp} (product : op.level = .product) (flips : Bool) (a b : Int) :
    op.apply (flipped flips a) b = (op.apply a b).map (flipped flips) := by
  cases flips with
  | false =>
      have kept : flipped false = id := rfl
      simp [kept]
  | true =>
      match op, product with
      | .arithmetic .mul, _ => simp [apply, flipped]
      | .arithmetic .div, _ =>
          by_cases zero : b = 0
          · simp [apply, zero]
          · simp [apply, zero, flipped]

theorem BinaryOp.absorb_other {op : BinaryOp} (other : op.level ≠ .sum) (front : Option Sign) :
    op.absorb front = (op, front) := by
  cases op with
  | arithmetic op => cases op <;> first | rfl | exact absurd rfl other
  | comparison op => rfl
  | connective op => rfl

theorem BinaryOp.absorb_sum {op : BinaryOp} (sum : op.level = .sum) (front : Option Sign) :
    (op.absorb front).2 = none := by
  match op, sum with
  | .arithmetic .add, _ => rfl
  | .arithmetic .sub, _ => rfl

namespace Formula

variable {bound : Option Level}

theorem resigned_binary {op : BinaryOp} (product : op.level = .product) (left : Formula (some op.level))
    (right : Formula op.level.tighter) (negated : Bool) (bindings : Variables) :
    (binary op left right).resigned negated bindings =
      (left.resigned negated bindings).bind fun a => (right.value bindings).bind fun b => op.apply a b := by
  simp only [resigned, value, front]
  cases left.value bindings with
  | none => rfl
  | some a =>
      cases right.value bindings with
      | none => rfl
      | some b => exact (BinaryOp.apply_flipped product _ a b).symm

theorem value_absorbed {op : BinaryOp} (sum : op.level = .sum) (left : Formula (some op.level))
    (right : Formula op.level.tighter) (bindings : Variables) :
    (binary op left right).value bindings =
      (left.value bindings).bind fun a =>
        (right.resigned false bindings).bind fun b => (op.absorb right.front).1.apply a b := by
  simp only [value, resigned]
  cases left.value bindings with
  | none => rfl
  | some a =>
      cases right.value bindings with
      | none => rfl
      | some b =>
          generalize right.front = front
          match op, sum with
          | .arithmetic .add, _ =>
              rcases front with _ | _ | _ <;>
                simp [BinaryOp.apply, BinaryOp.absorb, Sign.join, Sign.op, flipped]
          | .arithmetic .sub, _ =>
              rcases front with _ | _ | _ <;>
                simp [BinaryOp.apply, BinaryOp.absorb, Sign.join, Sign.op, flipped, Int.sub_eq_add_neg]

/-- The tree of a formula evaluates to its integer; the sign at the front of a product may be any. -/
theorem eval_tree {env : Env σ} (alone : env.services = {}) {session : Session σ} {bindings : Variables}
    (agrees : Agrees session bindings) (e : Formula bound) (short : e.ShortLiterals) :
    (Tight bound → ∀ negated, Gives (Expr.eval env false (e.tree negated)) session (e.resigned negated bindings)) ∧
      Gives (Expr.eval env false (e.tree (e.front = some .minus))) session (e.value bindings) := by
  have tight {bound : Option Level} {e : Formula bound}
      (all : ∀ negated, Gives (Expr.eval env false (e.tree negated)) session (e.resigned negated bindings)) :
      (Tight bound → ∀ negated, Gives (Expr.eval env false (e.tree negated)) session (e.resigned negated bindings)) ∧
        Gives (Expr.eval env false (e.tree (e.front = some .minus))) session (e.value bindings) := by
    refine ⟨fun _ => all, ?_⟩
    rw [← e.resigned_front bindings]
    exact all _
  induction e with
  | literal numeral =>
      have read : Gives (Expr.eval env false (.term numeral.digits)) session (some numeral.number) :=
        (numeral.evalTerm env session).trans (if_neg (Nat.not_lt.mpr short))
      exact tight fun negated => by simpa [resigned, front, tree, value] using read.signed negated
  | name identifier =>
      have read : Gives (Expr.eval env false (.term identifier.text)) session (bindings identifier.text) :=
        agrees.evalTerm alone identifier
      exact tight fun negated => by simpa [resigned, front, tree, value] using read.signed negated
  | group inner ih =>
      have read : Gives (Expr.eval env false (.group false (inner.tree (inner.front = some .minus)))) session
          (inner.value bindings) := (ih short).2
      exact tight fun negated => by simpa [resigned, front, tree, value] using read.signed negated
  | signed sign operand ih =>
      refine tight fun negated => ?_
      rw [resigned_signed]
      exact (ih short).1 (.inl rfl) negated
  | @plain level inner ih =>
      refine ⟨fun bounded => ?_, (ih short).2⟩
      have product : level = .product := by
        rcases bounded with none | same
        · cases none
        · exact Option.some.inj same
      subst product
      exact (ih short).1 (.inl rfl)
  | binary op left right leftIh rightIh =>
      have before := leftIh short.1
      have after := rightIh short.2
      -- a sum takes the sign before its right operand into its operator, a product leaves it in the operand
      by_cases sum : op.level = .sum
      · refine ⟨fun bounded => ?_, ?_⟩
        · rcases bounded with none | same
          · cases none
          · exact absurd (Option.some.inj (same.symm.trans (congrArg some sum))) (by decide)
        · have inner : Tight op.level.tighter := .inr (by rw [sum]; rfl)
          rw [value_absorbed sum]
          simp only [tree, BinaryOp.absorb_sum sum]
          exact before.2.binary _ (after.1 inner false)
      · have kept : op.absorb right.front = (op, right.front) := BinaryOp.absorb_other sum _
        refine ⟨fun bounded negated => ?_, ?_⟩
        · have product : op.level = .product := by
            rcases bounded with none | same
            · cases none
            · exact Option.some.inj same
          rw [resigned_binary product]
          simp only [tree, kept]
          exact (before.1 bounded negated).binary op after.2
        · simp only [tree, kept]
          exact before.2.binary op after.2

end Formula

end CommandScript
