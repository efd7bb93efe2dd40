import CommandScript.Expr.Eval

/-! The two modes of evaluation. A condition may hold quoted texts where a value may not, and that is all that sets the
modes apart: a tree that has a value has the same one as a condition, after the same requests and the same writes. -/

namespace CommandScript

variable {σ α β : Type}

namespace Run

/-- The programs do the same, unless `blamed` holds and the strict one leaves because of a quoted text. -/
def AgreesUnless (blamed : Prop) (strict lenient : Run σ α) : Prop :=
  ∀ session, lenient session = strict session ∨
    blamed ∧ ∃ after, strict session = .error (.error { cause := .malformed .strayQuotes }) after

namespace AgreesUnless

variable {blamed : Prop}

theorem refl (program : Run σ α) : AgreesUnless blamed program program := fun _ => .inl rfl

theorem mono {wider : Prop} {strict lenient : Run σ α} (agrees : AgreesUnless blamed strict lenient)
    (implied : blamed → wider) : AgreesUnless wider strict lenient :=
  fun session => (agrees session).imp_right fun refused => ⟨implied refused.1, refused.2⟩

theorem bind {strict lenient : Run σ α} {next other : α → Run σ β} (first : AgreesUnless blamed strict lenient)
    (second : ∀ value, AgreesUnless blamed (next value) (other value)) :
    AgreesUnless blamed (strict >>= next) (lenient >>= other) := by
  intro session
  change EStateM.bind lenient other session = EStateM.bind strict next session ∨
    blamed ∧ ∃ after, EStateM.bind strict next session = _
  unfold EStateM.bind
  rcases first session with same | ⟨blame, after, refused⟩
  · rw [same]
    cases strict session with
    | ok value between => exact second value between
    | error exit after => exact .inl rfl
  · rw [refused]
    exact .inr ⟨blame, after, rfl⟩

end AgreesUnless

end Run

namespace Expr

open Run

/-- A quoted text that is not the argument of a call is an operand of the tree. One inside an index is not: an index is
a value in either mode. -/
inductive HasBareQuote : Expr → Prop
  | quoted (text : Text) : HasBareQuote (quoted text false)
  | group {bare : Bool} {inner : Expr} : HasBareQuote inner → HasBareQuote (group bare inner)
  | call {name : Text} {args : List Expr} {arg : Expr} : arg ∈ args → HasBareQuote arg → HasBareQuote (call name args)
  | negate {operand : Expr} : HasBareQuote operand → HasBareQuote (negate operand)
  | invert {operand : Expr} : HasBareQuote operand → HasBareQuote (invert operand)
  | left {op : BinaryOp} {left right : Expr} : HasBareQuote left → HasBareQuote (binary op left right)
  | right {op : BinaryOp} {left right : Expr} : HasBareQuote right → HasBareQuote (binary op left right)

mutual

theorem eval_agrees (env : Env σ) (e : Expr) :
    AgreesUnless e.HasBareQuote (eval env false e) (eval env true e) := by
  cases e with
  | term text => exact AgreesUnless.refl (evalTerm env text)
  | element name index => exact AgreesUnless.refl _
  | quoted text inCall =>
      cases inCall with
      | true => exact AgreesUnless.refl _
      | false =>
          -- here the modes part
          intro session
          exact .inr ⟨.quoted text, session, rfl⟩
  | group bare inner => exact (eval_agrees env inner).mono .group
  | call name args =>
      unfold eval
      split
      · exact AgreesUnless.refl _
      · have evaluated : AgreesUnless (call name args).HasBareQuote (evalAll env false args) (evalAll env true args) :=
          (evalAll_agrees env args).mono fun ⟨arg, present, bare⟩ => .call present bare
        exact evaluated.bind fun values => AgreesUnless.refl _
  | negate operand => exact ((eval_agrees env operand).mono .negate).bind fun value => AgreesUnless.refl _
  | invert operand => exact ((eval_agrees env operand).mono .invert).bind fun value => AgreesUnless.refl _
  | binary op left right =>
      refine ((eval_agrees env left).mono .left).bind fun a => ?_
      exact ((eval_agrees env right).mono .right).bind fun b => AgreesUnless.refl _

theorem evalAll_agrees (env : Env σ) (args : List Expr) :
    AgreesUnless (∃ arg ∈ args, arg.HasBareQuote) (evalAll env false args) (evalAll env true args) := by
  cases args with
  | nil => exact AgreesUnless.refl _
  | cons e rest =>
      refine ((eval_agrees env e).mono fun bare => ⟨e, List.mem_cons_self, bare⟩).bind fun value => ?_
      refine AgreesUnless.bind ?_ fun values => AgreesUnless.refl _
      exact (evalAll_agrees env rest).mono fun ⟨arg, present, bare⟩ => ⟨arg, List.mem_cons_of_mem e present, bare⟩

end

theorem eval_logical (env : Env σ) {e : Expr} (bareless : ¬ e.HasBareQuote) : eval env true e = eval env false e := by
  funext session
  rcases eval_agrees env e session with same | ⟨bare, -⟩
  · exact same
  · exact absurd bare bareless

/-- A tree with a value has the same value as a condition, and a tree that has one as a condition only holds a quoted
operand. The session that is left is the same too: it holds the files, and the state of the host, which may keep every
request that has been made. -/
theorem eval_conservative (env : Env σ) (e : Expr) (session : Session σ) :
    (∀ value after, eval env false e session = .ok value after → eval env true e session = .ok value after) ∧
      ∀ value after, eval env true e session = .ok value after →
        (∀ plain rest, eval env false e session ≠ .ok plain rest) → e.HasBareQuote := by
  constructor
  · intro value after valued
    rcases eval_agrees env e session with same | ⟨-, left, refused⟩
    · rw [same, valued]
    · simp [refused] at valued
  · intro value after valued unvalued
    by_cases bare : e.HasBareQuote
    · exact bare
    · rw [eval_logical env bare] at valued
      exact absurd valued (unvalued value after)

def notingEnv : Env (List Text) where
  services :=
    { resolvers :=
        [{ resolve := fun name => do
             modify (name :: ·)
             return Outcome.string "slow"
           call := fun name args => do
             modify (name :: args ++ ·)
             return Outcome.string "slow" }] }

def writingSession : Session (List Text) :=
  { Session.start {} [] with writeFile := some { place := ["out"], appends := false } }

def writeAndAsk : Expr :=
  binary (.comparison .equal)
    (call "writeInt" [binary (.comparison .equal) (term "mode") (quoted "slow" true)])
    (call "tell" [quoted "mode" true])

def askQuoted : Expr := binary (.comparison .equal) (term "mode") (quoted "slow" false)

/-- The first tree has its value in either mode, the second one only as a condition. -/
theorem eval_conservative_noting :
    (∃ after, eval notingEnv true writeAndAsk writingSession = .ok (.int 0) after ∧
      after.host = (["tell", "mode", "mode"] : List Text) ∧ after.writeFile.map (·.buffer) = some #[1, 0, 0, 0]) ∧
      askQuoted.HasBareQuote := by
  constructor
  · have valued : eval notingEnv false writeAndAsk writingSession = .ok (.int 0)
        { writingSession with
          host := ["tell", "mode", "mode"]
          writeFile := some { place := ["out"], appends := false, buffer := #[1, 0, 0, 0] } } := by rfl
    exact ⟨_, (eval_conservative notingEnv writeAndAsk writingSession).1 _ _ valued, by decide, by decide⟩
  · have valued : eval notingEnv true askQuoted writingSession =
        .ok (.int 1) { writingSession with host := ["mode"] } := by rfl
    have refused : eval notingEnv false askQuoted writingSession =
        .error (.error { cause := .malformed .strayQuotes }) { writingSession with host := ["mode"] } := by rfl
    refine (eval_conservative notingEnv askQuoted writingSession).2 _ _ valued ?_
    intro plain rest unexpected
    simp [refused] at unexpected

end Expr

end CommandScript
