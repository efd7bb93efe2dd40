import CommandScript.Expr.Eval
import CommandScript.Proofs.Confinement.Evaluation
import CommandScript.Proofs.Grammar.Accepted
import CommandScript.Proofs.Grammar.Places
import CommandScript.Proofs.Prefixes.Marks
import CommandScript.Proofs.Release.Programs

/-! Operands with prefix operators. A run of prefix operators in front of an operand changes the tree of the text in one
place: the operand is wrapped in at most one negation and one inversion. -/

namespace CommandScript

namespace Expr

variable {bracketed : Text → Except Malformed Expr}

/-- An operand that starts at a token of a tree: with other marks on the token, the tree is the same but for the
negation and inversion of this operand. -/
structure Marked (bracketed : Text → Except Malformed Expr) (inCall : Bool) (e : Expr) (front : List Token)
    (lexeme : Lexeme)
    (rest : List Token) (context : Context) (operand : Expr) : Prop where
  fills : e = context.fill operand
  plain : operand.isOperand = true
  first : ∃ inside own later, rest = own ++ later ∧ Yields bracketed inside operand ({ lexeme } :: own)
  marked (negated inverted : Bool) :
    let filled := context.fill (applyMarks ⟨lexeme, negated, inverted⟩ operand)
    WellShaped inCall filled ∧ Yields bracketed inCall filled (front ++ ⟨lexeme, negated, inverted⟩ :: rest) ∧
      filled.rank = e.rank ∧ (front ≠ [] → filled.isOperand = e.isOperand ∧ filled.isSigned = e.isSigned)

theorem Yields.marked_at {inCall : Bool} {e : Expr} {tokens : List Token} (yields : Yields bracketed inCall e tokens)
    (shaped : WellShaped inCall e) {front rest : List Token} {lexeme : Lexeme}
    (whole : tokens = front ++ { lexeme } :: rest)
    (starts : Token.startsOperand lexeme = true)
    (place : ∀ last ∈ front.getLast?, Token.atOperandStart (some last.lexeme) = true) :
    ∃ context operand, Marked bracketed inCall e front lexeme rest context operand := by
  obtain ⟨own, later, context, operand, rfl, found⟩ := yields.placed_at shaped whole starts place
  refine ⟨context, operand, found.fills, found.written.plain, ⟨_, own, later, rfl, found.written.yields⟩, ?_⟩
  intro negated inverted
  exact found.replaced ⟨lexeme, negated, inverted⟩ operand own found.written

/-- An operand with the negation and the inversion that a run of prefix operators leaves. -/
def prefixed (run : List Prefix) (operand : Expr) : Expr :=
  let signed := if Prefix.negates run then negate operand else operand
  if Prefix.inverts run then invert signed else signed

variable {σ : Type}

theorem eval_prefixed {env : Env σ} {logical : Bool} {operand : Expr} {session after : Session σ} {n : Int}
    (value : eval env logical operand session = .ok (.int n) after) (run : List Prefix) :
    eval env logical (prefixed run operand) session = .ok (.int (Prefix.counted run n)) after := by
  have negation {inner : Expr} {m : Int} (known : eval env logical inner session = .ok (.int m) after) :
      eval env logical (.negate inner) session = .ok (.int (-m)) after := by
    rw [eval]
    exact Run.bind_ok known _
  have inversion {inner : Expr} {m : Int} (known : eval env logical inner session = .ok (.int m) after) :
      eval env logical (.invert inner) session = .ok (.int (Prefix.inversion m)) after := by
    rw [eval]
    refine (Run.bind_ok known _).trans ?_
    by_cases zero : m = 0 <;> simp [inverted, ofBool, Prefix.inversion, zero] <;> rfl
  cases negated : Prefix.negates run <;> cases inverted : Prefix.inverts run <;>
    simp only [prefixed, Prefix.counted, Prefix.signed, negated, inverted, if_true, Bool.false_eq_true, if_false]
  · exact value
  · exact inversion value
  · exact negation value
  · exact inversion (negation value)

/-- Prefix operators are counted. A run of them before an operand that has none, at the start of the text or after an
operator that is no sign, is read as at most one negation and at most one inversion of this operand, the negation first;
nothing else in the tree changes. An operand that is an integer gets the value that the counted operators make of it,
which is the value of the operators applied one at a time from right to left in the cases of `Prefix.Agrees` only. -/
theorem prefixes_counted {plain : Text} {e : Expr} (parsed : parse plain = .ok e) {before after : List Lexeme}
    {first : Lexeme}
    (scanned : Lexeme.scan plain = .ok (before ++ first :: after)) (place : ∀ last ∈ before.getLast?, Token.Opens last)
    (starts : Token.startsOperand first = true) (noQuote : first.isQuoted = false) :
    ∃ (context : Context) (operand : Expr), e = context.fill operand ∧ operand.isOperand = true ∧
      (∃ front own later inside, Token.tokenize plain = .ok (front ++ { lexeme := first } :: (own ++ later)) ∧
        Yields parse inside operand ({ lexeme := first } :: own)) ∧
      ∀ (run : List Prefix) (text : Text), Text.checkBalance text = .ok () →
        Lexeme.scan text = .ok (before ++ (run.map Prefix.lexeme ++ first :: after)) →
        parse text = .ok (context.fill (prefixed run operand)) ∧
        ∀ (env : Env σ) (logical : Bool) (session ended : Session σ) (n : Int),
          eval env logical operand session = .ok (.int n) ended →
          eval env logical (prefixed run operand) session = .ok (.int (Prefix.counted run n)) ended ∧
          (Prefix.counted run n = Prefix.applied run n ↔ Prefix.Agrees run n) := by
  obtain ⟨tokens, tokenized, shaped, yields⟩ := parse_eq_ok.mp parsed
  obtain ⟨front, rest, rfl, ends, prefixing⟩ := Token.tokenize_prefixed place starts noQuote scanned tokenized
  obtain ⟨context, operand, found⟩ := yields.marked_at shaped rfl starts ends
  obtain ⟨inside, own, later, rfl, written⟩ := found.first
  refine ⟨context, operand, found.fills, found.plain, ⟨front, own, later, inside, tokenized, written⟩,
    fun run text balanced spelled => ⟨?_, ?_⟩⟩
  · obtain ⟨wellShaped, yielded, -, -⟩ := found.marked (Prefix.negates run) (Prefix.inverts run)
    exact parse_eq_ok.mpr ⟨_, prefixing run text balanced spelled, wellShaped, yielded⟩
  · exact fun env logical session ended n value => ⟨eval_prefixed value run, Prefix.counted_eq_applied_iff run n⟩

/-- Two inversions of five are read as five, but one after the other they make one. -/
theorem prefixes_counted_twice :
    parse "5" = .ok (.term "5") ∧ parse "!!5" = .ok (prefixed [.bang, .bang] (.term "5")) ∧
      (∀ session : Session Unit,
        eval {} false (prefixed [.bang, .bang] (.term "5")) session = .ok (.int 5) session) ∧
      Prefix.applied [.bang, .bang] 5 = 1 ∧ ¬ Prefix.Agrees [.bang, .bang] 5 := by
  have parsed : parse "5" = .ok (.term "5") := by cbv
  obtain ⟨context, operand, fills, -, -, prefixing⟩ :=
    @prefixes_counted Unit "5" (.term "5") parsed [] [] (.term "5" none) (by cbv) (by simp) rfl rfl
  obtain ⟨rfl, rfl⟩ : context = .hole ∧ operand = .term "5" := by
    cases context <;> cases fills
    exact ⟨rfl, rfl⟩
  obtain ⟨read, value⟩ := prefixing [.bang, .bang] "!!5" (by cbv) (by cbv)
  have five (session : Session Unit) : eval {} false (.term "5") session = .ok (.int 5) session := by
    rw [eval]
    rfl
  have counted (session : Session Unit) := (value {} false session session 5 (five session)).1
  have agrees := (value {} false (Session.start {} ()) _ 5 (five _)).2
  exact ⟨parsed, read, counted, rfl, fun same => absurd (agrees.mpr same) (by decide)⟩

end Expr

end CommandScript
