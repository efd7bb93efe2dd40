import CommandScript.Proofs.Confinement.Evaluation
import CommandScript.Proofs.Evaluation.Modes
import CommandScript.Proofs.Grammar.Places

/-! Trees that differ in where their quoted texts are taken to stand. The same tokens are read into both, one by
a parser that is in the arguments of a call and one by a parser that is not. As conditions the two are evaluated
alike; as values they are unless a quoted text is an operand. -/

namespace CommandScript

namespace Expr

section Arguments

variable (before after : List Expr)

theorem depths_append (e : Expr) :
    readingDepthAll (before ++ e :: after) =
      max (readingDepthAll before) (max (readingDepth e) (readingDepthAll after)) ∧
      evalDepthAll (before ++ e :: after) = max (evalDepthAll before) (max (evalDepth e) (evalDepthAll after)) := by
  induction before with
  | nil => simp only [List.nil_append, readingDepthAll, evalDepthAll, Nat.zero_max, and_self]
  | cons first rest ih =>
      obtain ⟨reading, evaluating⟩ := ih
      simp only [List.cons_append, readingDepthAll, evalDepthAll, reading, evaluating, Nat.max_assoc, and_self]

variable {before after} {e other : Expr}

theorem askedName?_append (plain : e.plainName? = other.plainName?) {name : Text} :
    askedName? name (before ++ e :: after) = askedName? name (before ++ other :: after) := by
  cases before with
  | nil =>
      cases after with
      | nil => rw [List.nil_append, List.nil_append, askedName?, askedName?, plain]
      | cons second more => rfl
  | cons first more => cases more <;> rfl

theorem evalAll_append {σ : Type} {env : Env σ} {logical : Bool} (same : eval env logical e = eval env logical other) :
    evalAll env logical (before ++ e :: after) = evalAll env logical (before ++ other :: after) := by
  induction before with
  | nil => rw [List.nil_append, List.nil_append, evalAll, evalAll, same]
  | cons first rest ih => rw [List.cons_append, List.cons_append, evalAll, evalAll, ih]

end Arguments

namespace Context

variable {e other : Expr}

/-- What a tree comes to depends on an operand in it only by what the operand comes to, unless it is the name that
`defined` asks about. -/
theorem eval_fill {σ : Type} {env : Env σ} {logical : Bool} (same : eval env logical e = eval env logical other)
    (plain : e.plainName? = other.plainName?) (context : Context) :
    eval env logical (context.fill e) = eval env logical (context.fill other) := by
  induction context with
  | hole => exact same
  | group inner ih => rw [fill, fill, eval, eval, ih]
  | argument name before inner after ih =>
      have inside : (inner.fill e).plainName? = (inner.fill other).plainName? := by
        cases inner with
        | hole => exact plain
        | _ => rfl
      rw [fill, fill, eval, eval, askedName?_append inside, evalAll_append ih]
  | negate inner ih => rw [fill, fill, eval, eval, ih]
  | invert inner ih => rw [fill, fill, eval, eval, ih]
  | onLeft op inner right ih => rw [fill, fill, eval, eval, ih]
  | onRight op left inner ih => rw [fill, fill, eval, eval, ih]

theorem depths_fill (reading : e.readingDepth ≤ other.readingDepth) (evaluating : e.evalDepth ≤ other.evalDepth)
    (context : Context) : (context.fill e).readingDepth ≤ (context.fill other).readingDepth ∧
      (context.fill e).evalDepth ≤ (context.fill other).evalDepth := by
  induction context with
  | hole => exact ⟨reading, evaluating⟩
  | argument name before inner after ih =>
      simp only [fill, readingDepth, evalDepth, depths_append]
      omega
  | _ =>
      simp only [fill, readingDepth, evalDepth]
      omega

end Context

/-- The trees are the same but for the quoted texts, which may stand in a call in one and not in the other. -/
inductive Requoted : Expr → Expr → Prop
  | refl (e : Expr) : Requoted e e
  | quoted (text : Text) (first second : Bool) : Requoted (quoted text first) (quoted text second)
  | group (bare : Bool) {e other : Expr} : Requoted e other → Requoted (group bare e) (group bare other)
  | argument (name : Text) (before after : List Expr) {e other : Expr} :
      Requoted e other → Requoted (call name (before ++ e :: after)) (call name (before ++ other :: after))
  | negate {e other : Expr} : Requoted e other → Requoted (negate e) (negate other)
  | invert {e other : Expr} : Requoted e other → Requoted (invert e) (invert other)
  | binary (op : BinaryOp) {left left' right right' : Expr} :
      Requoted left left' → Requoted right right' → Requoted (binary op left right) (binary op left' right')

namespace Requoted

variable {e other : Expr}

theorem symm (same : Requoted e other) : Requoted other e := by
  induction same with
  | refl e => exact .refl e
  | quoted text first second => exact .quoted text second first
  | group bare _ ih => exact .group bare ih
  | argument name before after _ ih => exact .argument name before after ih
  | negate _ ih => exact ih.negate
  | invert _ ih => exact ih.invert
  | binary op _ _ leftIh rightIh => exact .binary op leftIh rightIh

theorem plainName? (same : Requoted e other) : e.plainName? = other.plainName? := by
  cases same <;> rfl

theorem depths (same : Requoted e other) : e.readingDepth = other.readingDepth ∧ e.evalDepth = other.evalDepth := by
  induction same with
  | refl e => exact ⟨rfl, rfl⟩
  | quoted text first second => exact ⟨rfl, rfl⟩
  | group bare _ ih => cases bare <;> simp only [readingDepth, evalDepth, ih, and_self]
  | argument name before after _ ih => simp only [readingDepth, evalDepth, depths_append, ih, and_self]
  | negate _ ih => simp only [readingDepth, evalDepth, ih, and_self]
  | invert _ ih => simp only [readingDepth, evalDepth, ih, and_self]
  | binary op _ _ leftIh rightIh => simp only [readingDepth, evalDepth, leftIh, rightIh, and_self]

variable {σ : Type}

theorem eval (same : Requoted e other) (env : Env σ) : Expr.eval env true e = Expr.eval env true other := by
  induction same with
  | refl e => rfl
  | quoted text first second => simp [Expr.eval]
  | group bare _ ih => rw [Expr.eval, Expr.eval, ih]
  | argument name before after inner ih =>
      rw [Expr.eval, Expr.eval, askedName?_append inner.plainName?, evalAll_append ih]
  | negate _ ih => rw [Expr.eval, Expr.eval, ih]
  | invert _ ih => rw [Expr.eval, Expr.eval, ih]
  | binary op _ _ leftIh rightIh => rw [Expr.eval, Expr.eval, leftIh, rightIh]

end Requoted

variable {bracketed : Text → Except Malformed Expr}

/-- What becomes of a tree when its tokens are read in another place. -/
structure RequotedAs (bracketed : Text → Except Malformed Expr) (before after : Bool) (e : Expr) (tokens : List Token)
    (other : Expr) : Prop where
  yields : Yields bracketed after other tokens
  shaped : WellShaped after other
  requoted : Requoted e other
  rank : other.rank = e.rank
  plain : other.isOperand = e.isOperand
  signed : other.isSigned = e.isSigned
  same_or_bare : other = e ∨ before ≠ after ∧ (before = false → e.HasBareQuote) ∧ (after = false → other.HasBareQuote)

namespace RequotedAs

variable {before after : Bool} {e other : Expr} {tokens : List Token}

theorem kept (yields : Yields bracketed after e tokens) (shaped : WellShaped after e) :
    RequotedAs bracketed before after e tokens e :=
  ⟨yields, shaped, .refl e, rfl, rfl, rfl, .inl rfl⟩

theorem group (inner : RequotedAs bracketed before after e tokens other) {opening closing : Text}
    (opened : Operator.openParen.Spelled opening) (closed : Operator.closeParen.Spelled closing) :
    RequotedAs bracketed before after (.group false e)
      ({ lexeme := .operator .openParen opening } :: tokens ++ [{ lexeme := .operator .closeParen closing }])
        (.group false other) where
  yields := .group opened closed inner.yields
  shaped := .group inner.shaped
  requoted := .group false inner.requoted
  rank := rfl
  plain := rfl
  signed := rfl
  same_or_bare := inner.same_or_bare.imp (congrArg _) fun ⟨apart, first, second⟩ =>
    ⟨apart, fun flag => .group (first flag), fun flag => .group (second flag)⟩

theorem negate {first : Token} {rest : List Token} (inner : RequotedAs bracketed before after e (first :: rest) other)
    (plain : e.isOperand = true) :
    RequotedAs bracketed before after (.negate e) ({ first with negated := true } :: rest) (.negate other) where
  yields := .negate inner.yields
  shaped := .negate (inner.plain.trans plain) inner.shaped
  requoted := inner.requoted.negate
  rank := rfl
  plain := rfl
  signed := inner.plain
  same_or_bare := inner.same_or_bare.imp (congrArg _) fun ⟨apart, first, second⟩ =>
    ⟨apart, fun flag => .negate (first flag), fun flag => .negate (second flag)⟩

theorem invert {first : Token} {rest : List Token} (inner : RequotedAs bracketed before after e (first :: rest) other)
    (signed : e.isSigned = true) :
    RequotedAs bracketed before after (.invert e) ({ first with inverted := true } :: rest) (.invert other) where
  yields := .invert inner.yields
  shaped := .invert (inner.signed.trans signed) inner.shaped
  requoted := inner.requoted.invert
  rank := rfl
  plain := rfl
  signed := rfl
  same_or_bare := inner.same_or_bare.imp (congrArg _) fun ⟨apart, first, second⟩ =>
    ⟨apart, fun flag => .invert (first flag), fun flag => .invert (second flag)⟩

theorem binary {op : BinaryOp} {left left' right right' : Expr} {tokens others : List Token} {spelling : Text}
    (leftSide : RequotedAs bracketed before after left tokens left')
    (rightSide : RequotedAs bracketed before after right others right')
    (spelled : (Operator.binary op).Spelled spelling)
    (tight : op.level.rank ≤ left.rank) (tighter : op.level.rank < right.rank) :
    RequotedAs bracketed before after (.binary op left right)
      (tokens ++ { lexeme := .operator (.binary op) spelling } :: others) (.binary op left' right') where
  yields := .binary spelled leftSide.yields rightSide.yields
  shaped := .binary (leftSide.rank ▸ tight) (rightSide.rank ▸ tighter) leftSide.shaped rightSide.shaped
  requoted := .binary op leftSide.requoted rightSide.requoted
  rank := rfl
  plain := rfl
  signed := rfl
  same_or_bare := by
    rcases leftSide.same_or_bare with rfl | ⟨apart, first, second⟩
    · rcases rightSide.same_or_bare with rfl | ⟨apart, first, second⟩
      · exact .inl rfl
      · exact .inr ⟨apart, fun flag => .right (first flag), fun flag => .right (second flag)⟩
    · exact .inr ⟨apart, fun flag => .left (first flag), fun flag => .left (second flag)⟩

end RequotedAs

theorem Yields.requoted (known : ∀ text tree, bracketed text = .ok tree → WellShaped false tree) {before : Bool}
    {e : Expr}
    {tokens : List Token} (yields : Yields bracketed before e tokens) (shaped : WellShaped before e) (after : Bool) :
    ∃ other, RequotedAs bracketed before after e tokens other := by
  match yields with
  | .term text =>
      cases shaped with
      | term filled => exact ⟨_, .kept (.term text) (.term filled)⟩
  | .element name found =>
      cases shaped with
      | element filled shapedIndex => exact ⟨_, .kept (.element name found) (.element filled shapedIndex)⟩
  | .quoted text =>
      refine ⟨.quoted text after, .quoted text, .quoted text, .quoted text before after, rfl, rfl, rfl, ?_⟩
      cases before <;> cases after
      · exact .inl rfl
      · exact .inr ⟨nofun, fun _ => .quoted text, nofun⟩
      · exact .inr ⟨nofun, nofun, fun _ => .quoted text⟩
      · exact .inl rfl
  | .group opened closed inner =>
      obtain ⟨other, found⟩ := inner.requoted known shaped.of_group after
      exact ⟨_, found.group opened closed⟩
  | .bracket found => exact ⟨_, .kept (.bracket found) (.bracket (known _ _ found))⟩
  | .call name opened closed args =>
      cases shaped with
      | call dotted shapedArgs => exact ⟨_, .kept (.call name opened closed args) (.call dotted shapedArgs)⟩
  | .negate operand =>
      cases shaped with
      | negate plain shapedOperand =>
          obtain ⟨other, found⟩ := operand.requoted known shapedOperand after
          exact ⟨_, found.negate plain⟩
  | .invert operand =>
      cases shaped with
      | invert signed shapedOperand =>
          obtain ⟨other, found⟩ := operand.requoted known shapedOperand after
          exact ⟨_, found.invert signed⟩
  | .binary spelled left right =>
      cases shaped with
      | binary tight tighter shapedLeft shapedRight =>
          obtain ⟨left', leftSide⟩ := left.requoted known shapedLeft after
          obtain ⟨right', rightSide⟩ := right.requoted known shapedRight after
          exact ⟨_, leftSide.binary rightSide spelled tight tighter⟩

namespace HasBareQuote

variable {e : Expr}

theorem marks (bare : e.HasBareQuote) (token : Token) : (applyMarks token e).HasBareQuote := by
  obtain ⟨lexeme, negated, inverted⟩ := token
  cases negated <;> cases inverted
  · exact bare
  · exact .invert bare
  · exact .negate bare
  · exact .invert (.negate bare)

theorem fill (bare : e.HasBareQuote) (context : Context) : (context.fill e).HasBareQuote := by
  induction context with
  | hole => exact bare
  | group inner ih => exact .group ih
  | argument name before inner after ih => exact .call (by simp) ih
  | negate inner ih => exact .negate ih
  | invert inner ih => exact .invert ih
  | onLeft op inner right ih => exact .left ih
  | onRight op left inner ih => exact .right ih

variable {σ : Type}

theorem evalAll_none {env : Env σ} {args : List Expr} {arg : Expr} (member : arg ∈ args)
    (none : ∀ session value after, eval env false arg session ≠ .ok value after) (session : Session σ)
    (values : List Value) (after : Session σ) : evalAll env false args session ≠ .ok values after := by
  induction args generalizing session values after with
  | nil => cases member
  | cons first rest ih =>
      intro ran
      rw [evalAll] at ran
      obtain ⟨value, middle, head, later⟩ := Run.bind_ended ran
      obtain ⟨others, last, tail, -⟩ := Run.bind_ended later
      rcases List.mem_cons.mp member with rfl | inside
      · exact none _ _ _ head
      · exact ih inside _ _ _ tail

theorem noValue (bare : e.HasBareQuote) {inCall : Bool} (shaped : WellShaped inCall e) (env : Env σ)
    (session : Session σ)
    (value : Value) (after : Session σ) : eval env false e session ≠ .ok value after := by
  -- every operator on the way to the quoted text asks for the value of that operand
  induction bare generalizing inCall session value after with
  | quoted text => exact nofun
  | group inner ih =>
      cases shaped with
      | group shapedInner => exact ih shapedInner session value after
      | bracket shapedInner => exact ih shapedInner session value after
  | @call name args arg member inner ih =>
      cases shaped with
      | call dotted shapedArgs =>
          have shapedArg := shapedArgs arg member
          have evaluated : askedName? name args = none := by
            unfold askedName?
            split
            · -- a plain name is no quoted text that stands outside of calls
              rename_i only
              obtain rfl := List.mem_singleton.mp member
              split
              · cases inner with
                | quoted text => cases shapedArg
                | _ => rfl
              · rfl
            · rfl
          intro ran
          rw [eval, evaluated] at ran
          obtain ⟨values, middle, all, -⟩ := Run.bind_ended ran
          exact evalAll_none member (ih shapedArg) _ _ _ all
  | negate inner ih =>
      cases shaped with
      | negate plain shapedInner =>
          intro ran
          rw [eval] at ran
          obtain ⟨_, _, first, -⟩ := Run.bind_ended ran
          exact ih shapedInner _ _ _ first
  | invert inner ih =>
      cases shaped with
      | invert signed shapedInner =>
          intro ran
          rw [eval] at ran
          obtain ⟨_, _, first, -⟩ := Run.bind_ended ran
          exact ih shapedInner _ _ _ first
  | left inner ih =>
      cases shaped with
      | binary tight tighter shapedLeft shapedRight =>
          intro ran
          rw [eval] at ran
          obtain ⟨_, _, first, -⟩ := Run.bind_ended ran
          exact ih shapedLeft _ _ _ first
  | right inner ih =>
      cases shaped with
      | binary tight tighter shapedLeft shapedRight =>
          intro ran
          rw [eval] at ran
          obtain ⟨_, _, -, later⟩ := Run.bind_ended ran
          obtain ⟨_, _, second, -⟩ := Run.bind_ended later
          exact ih shapedRight _ _ _ second

end HasBareQuote

end Expr

end CommandScript
