import CommandScript.Proofs.Grammar.Completeness
import CommandScript.Proofs.Grammar.Tokens

/-! Operands and the places where they stand. A token that starts an operand divides the tokens of a tree into what is
before the operand, the operand's own tokens and what is after it; another operand with its tokens can be put in the
place, and nothing else in the tree changes. -/

namespace CommandScript

namespace Expr

inductive Context where
  | hole
  | group (inner : Context)
  | argument (name : Text) (before : List Expr) (inner : Context) (after : List Expr)
  | negate (inner : Context)
  | invert (inner : Context)
  | onLeft (op : BinaryOp) (inner : Context) (right : Expr)
  | onRight (op : BinaryOp) (left : Expr) (inner : Context)

namespace Context

def fill : Context → Expr → Expr
  | hole, e => e
  | group inner, e => .group false (inner.fill e)
  | argument name before inner after, e => .call name (before ++ inner.fill e :: after)
  | negate inner, e => .negate (inner.fill e)
  | invert inner, e => .invert (inner.fill e)
  | onLeft op inner right, e => .binary op (inner.fill e) right
  | onRight op left inner, e => .binary op left (inner.fill e)

def inCall : Context → Bool
  | hole => false
  | argument _ _ _ _ => true
  | group inner | negate inner | invert inner | onLeft _ inner _ | onRight _ _ inner => inner.inCall

end Context

variable {bracketed : Text → Except Malformed Expr}

/-- An operand without marks, and the tokens it is written with. -/
structure Written (bracketed : Text → Except Malformed Expr) (inCall : Bool) (operand : Expr) (first : Lexeme)
    (own : List Token) : Prop where
  plain : operand.isOperand = true
  shaped : WellShaped inCall operand
  yields : Yields bracketed inCall operand ({ lexeme := first } :: own)

namespace Written

variable {inCall : Bool} {operand : Expr} {own : List Token}

theorem marked {token : Token} (written : Written bracketed inCall operand token.lexeme own) :
    WellShaped inCall (applyMarks token operand) ∧ Yields bracketed inCall (applyMarks token operand) (token :: own) ∧
      (applyMarks token operand).rank = 4 := by
  obtain ⟨plain, shaped, yields⟩ := written
  have signed := isSigned_of_isOperand plain
  obtain ⟨lexeme, negated, inverted⟩ := token
  cases negated <;> cases inverted
  · exact ⟨shaped, yields, rank_of_isSigned signed⟩
  · exact ⟨.invert signed shaped, .invert yields, rfl⟩
  · exact ⟨.negate plain shaped, .negate yields, rfl⟩
  · exact ⟨.invert plain (.negate plain shaped), .invert (.negate yields), rfl⟩

end Written

theorem Yields.unmarked {inCall : Bool} {e : Expr} {first : Token} {rest : List Token}
    (yields : Yields bracketed inCall e (first :: rest)) (plain : e.isOperand = true) :
      first = { lexeme := first.lexeme } := by
  generalize whole : first :: rest = tokens at yields
  cases yields with
  | negate _ => cases plain
  | invert _ => cases plain
  | binary _ _ _ => cases plain
  | _ =>
      cases whole
      rfl

/-- The marks on the first token of a primary are those that its operand has. -/
theorem Yields.primary {inCall : Bool} {e : Expr} {token : Token} {rest : List Token}
    (yields : Yields bracketed inCall e (token :: rest)) (shaped : WellShaped inCall e)
    (unary : ∀ op left right, e ≠ .binary op left right) :
    ∃ operand, e = applyMarks token operand ∧ Written bracketed inCall operand token.lexeme rest := by
  -- a primary is an operand under at most one sign under at most one inversion
  have operand {e : Expr} {token : Token} {rest : List Token} (plain : e.isOperand = true)
    (shaped : WellShaped inCall e)
      (yields : Yields bracketed inCall e (token :: rest)) :
      token = { lexeme := token.lexeme } ∧ Written bracketed inCall e token.lexeme rest := by
    have same := yields.unmarked plain
    rw [same] at yields
    exact ⟨same, plain, shaped, yields⟩
  cases e with
  | binary op left right => exact absurd rfl (unary op left right)
  | negate inner =>
      cases shaped with
      | negate plain shapedInner =>
          cases yields with
          | @negate _ _ first _ yieldsInner =>
              obtain ⟨same, written⟩ := operand plain shapedInner yieldsInner
              refine ⟨inner, ?_, written⟩
              rw [same]
              rfl
  | invert inner =>
      cases shaped with
      | invert signed shapedInner =>
          cases yields with
          | @invert _ _ first _ yieldsInner =>
              cases inner with
              | negate innermost =>
                  cases shapedInner with
                  | negate plain shapedInnermost =>
                      cases yieldsInner with
                      | @negate _ _ first _ yieldsInnermost =>
                          obtain ⟨same, written⟩ := operand plain shapedInnermost yieldsInnermost
                          refine ⟨innermost, ?_, written⟩
                          rw [same]
                          rfl
              | invert innermost => cases signed
              | binary op left right => cases signed
              | _ =>
                  obtain ⟨same, written⟩ := operand rfl shapedInner yieldsInner
                  refine ⟨_, ?_, written⟩
                  rw [same]
                  rfl
  | _ =>
      obtain ⟨same, written⟩ := operand rfl shaped yields
      refine ⟨_, ?_, written⟩
      rw [same]
      rfl

/-- An operand at a place among the tokens of a tree. Any other operand may be put there. -/
structure Placed (bracketed : Text → Except Malformed Expr) (inCall : Bool) (e : Expr) (front : List Token)
    (token : Token)
    (own later : List Token) (context : Context) (operand : Expr) : Prop where
  fills : e = context.fill (applyMarks token operand)
  written : Written bracketed (inCall || context.inCall) operand token.lexeme own
  replaced (other : Token) (operand' : Expr) (own' : List Token) :
    Written bracketed (inCall || context.inCall) operand' other.lexeme own' →
    let filled := context.fill (applyMarks other operand')
    WellShaped inCall filled ∧ Yields bracketed inCall filled (front ++ other :: (own' ++ later)) ∧
      filled.rank = e.rank ∧
      (front ≠ [] → filled.isOperand = e.isOperand ∧ filled.isSigned = e.isSigned)

structure PlacedAmong (bracketed : Text → Except Malformed Expr) (args : List Expr) (front : List Token) (token : Token)
    (own later : List Token) (before after : List Expr) (context : Context) (operand : Expr) : Prop where
  fills : args = before ++ context.fill (applyMarks token operand) :: after
  written : Written bracketed true operand token.lexeme own
  replaced (other : Token) (operand' : Expr) (own' : List Token) : Written bracketed true operand' other.lexeme own' →
    let filled := before ++ context.fill (applyMarks other operand') :: after
    (∀ arg ∈ filled, WellShaped true arg) ∧ YieldsAll bracketed filled (front ++ other :: (own' ++ later))

theorem placed_here {inCall : Bool} {e : Expr} {token : Token} {rest : List Token} (shaped : WellShaped inCall e)
    (yields : Yields bracketed inCall e (token :: rest)) (unary : ∀ op left right, e ≠ .binary op left right) :
    ∃ own later context operand, rest = own ++ later ∧
      Placed bracketed inCall e [] token own later context operand := by
  obtain ⟨operand, rfl, written⟩ := yields.primary shaped unary
  have same : (inCall || Context.inCall .hole) = inCall := Bool.or_false inCall
  refine ⟨rest, [], .hole, operand, (List.append_nil rest).symm, rfl, by rwa [same],
    fun token' operand' own' other => ?_⟩
  rw [same] at other
  obtain ⟨shapedOther, yieldsOther, rank⟩ := other.marked
  refine ⟨shapedOther, ?_, rank.trans written.marked.2.2.symm, fun filled => absurd rfl filled⟩
  rw [List.append_nil]
  exact yieldsOther

namespace Placed

variable {inCall : Bool} {e operand : Expr} {front own later : List Token} {token : Token} {context : Context}

theorem group (found : Placed bracketed inCall e front token own later context operand) {opening closing : Text}
    (opened : Operator.openParen.Spelled opening) (closed : Operator.closeParen.Spelled closing) :
    Placed bracketed inCall (.group false e) ({ lexeme := .operator .openParen opening } :: front) token own
      (later ++ [{ lexeme := .operator .closeParen closing }]) (.group context) operand := by
  obtain ⟨rfl, written, replaced⟩ := found
  refine ⟨rfl, written, fun token' operand' own' other => ?_⟩
  obtain ⟨shaped, yields, -, -⟩ := replaced _ _ _ other
  refine ⟨.group shaped, ?_, rfl, fun _ => ⟨rfl, rfl⟩⟩
  have whole := Yields.group opened closed yields
  simpa [Context.fill] using whole

theorem negate {first : Token} (found : Placed bracketed inCall e (first :: front) token own later context operand)
    (plain : e.isOperand = true) :
    Placed bracketed inCall (.negate e) ({ first with negated := true } :: front) token own later (.negate context)
      operand := by
  obtain ⟨rfl, written, replaced⟩ := found
  refine ⟨rfl, written, fun token' operand' own' other => ?_⟩
  obtain ⟨shaped, yields, -, kept⟩ := replaced _ _ _ other
  obtain ⟨same, -⟩ := kept (List.cons_ne_nil _ _)
  exact ⟨.negate (same.trans plain) shaped, .negate yields, rfl, fun _ => ⟨rfl, same⟩⟩

theorem invert {first : Token} (found : Placed bracketed inCall e (first :: front) token own later context operand)
    (signed : e.isSigned = true) :
    Placed bracketed inCall (.invert e) ({ first with inverted := true } :: front) token own later (.invert context)
      operand := by
  obtain ⟨rfl, written, replaced⟩ := found
  refine ⟨rfl, written, fun token' operand' own' other => ?_⟩
  obtain ⟨shaped, yields, -, kept⟩ := replaced _ _ _ other
  obtain ⟨-, same⟩ := kept (List.cons_ne_nil _ _)
  exact ⟨.invert (same.trans signed) shaped, .invert yields, rfl, fun _ => ⟨rfl, rfl⟩⟩

theorem onLeft (found : Placed bracketed inCall e front token own later context operand) {op : BinaryOp}
    {spelling : Text}
    {right : Expr} {after : List Token} (spelled : (Operator.binary op).Spelled spelling)
    (tight : op.level.rank ≤ e.rank)
    (tighter : op.level.rank < right.rank) (shapedRight : WellShaped inCall right)
    (yieldsRight : Yields bracketed inCall right after) :
    Placed bracketed inCall (.binary op e right) front token own
      (later ++ { lexeme := .operator (.binary op) spelling } :: after) (.onLeft op context right) operand := by
  obtain ⟨rfl, written, replaced⟩ := found
  refine ⟨rfl, written, fun token' operand' own' other => ?_⟩
  obtain ⟨shaped, yields, rank, -⟩ := replaced _ _ _ other
  refine ⟨.binary (rank ▸ tight) tighter shaped shapedRight, ?_, rfl, fun _ => ⟨rfl, rfl⟩⟩
  have whole := Yields.binary spelled yields yieldsRight
  simpa [Context.fill] using whole

theorem onRight (found : Placed bracketed inCall e front token own later context operand) {op : BinaryOp}
    {spelling : Text}
    {left : Expr} {before : List Token} (spelled : (Operator.binary op).Spelled spelling)
    (tight : op.level.rank ≤ left.rank)
    (tighter : op.level.rank < e.rank) (shapedLeft : WellShaped inCall left)
    (yieldsLeft : Yields bracketed inCall left before) :
    Placed bracketed inCall (.binary op left e)
      (before ++ { lexeme := .operator (.binary op) spelling } :: front) token own
      later (.onRight op left context) operand := by
  obtain ⟨rfl, written, replaced⟩ := found
  refine ⟨rfl, written, fun token' operand' own' other => ?_⟩
  obtain ⟨shaped, yields, rank, -⟩ := replaced _ _ _ other
  refine ⟨.binary tight (rank ▸ tighter) shapedLeft shaped, ?_, rfl, fun _ => ⟨rfl, rfl⟩⟩
  have whole := Yields.binary spelled yieldsLeft yields
  simpa [Context.fill] using whole

theorem one (found : Placed bracketed true e front token own later context operand) :
    PlacedAmong bracketed [e] front token own later [] [] context operand := by
  obtain ⟨rfl, written, replaced⟩ := found
  refine ⟨rfl, written, fun token' operand' own' other => ?_⟩
  obtain ⟨shaped, yields, -, -⟩ := replaced _ _ _ other
  refine ⟨fun arg member => ?_, .one yields⟩
  rw [List.mem_singleton.mp member]
  exact shaped

theorem head (found : Placed bracketed true e front token own later context operand) {comma : Text} {next : Expr}
    {args : List Expr} {others : List Token} (separated : Operator.comma.Spelled comma)
    (yieldsOthers : YieldsAll bracketed (next :: args) others)
    (shapedOthers : ∀ arg ∈ next :: args, WellShaped true arg) :
    PlacedAmong bracketed (e :: next :: args) front token own
      (later ++ { lexeme := .operator .comma comma } :: others) []
      (next :: args) context operand := by
  obtain ⟨rfl, written, replaced⟩ := found
  refine ⟨rfl, written, fun token' operand' own' other => ?_⟩
  obtain ⟨shaped, yields, -, -⟩ := replaced _ _ _ other
  constructor
  · intro arg member
    rcases List.mem_cons.mp member with rfl | inside
    · exact shaped
    · exact shapedOthers arg inside
  · have whole := YieldsAll.more separated yields yieldsOthers
    simpa using whole

end Placed

namespace PlacedAmong

variable {args before after : List Expr} {operand : Expr} {front own later : List Token} {token : Token}
  {context : Context}

theorem tail (found : PlacedAmong bracketed args front token own later before after context operand) {arg : Expr}
    {comma : Text} {tokens : List Token} (separated : Operator.comma.Spelled comma)
    (yieldsFirst : Yields bracketed true arg tokens) (shapedFirst : WellShaped true arg) :
    PlacedAmong bracketed (arg :: args) (tokens ++ { lexeme := .operator .comma comma } :: front) token own later
      (arg :: before) after context operand := by
  obtain ⟨rfl, written, replaced⟩ := found
  refine ⟨rfl, written, fun token' operand' own' other => ?_⟩
  obtain ⟨shaped, yields⟩ := replaced _ _ _ other
  constructor
  · intro arg' member
    rcases List.mem_cons.mp member with rfl | inside
    · exact shapedFirst
    · exact shaped arg' inside
  · obtain ⟨next, others, shape⟩ := List.exists_cons_of_ne_nil
      (List.append_ne_nil_of_right_ne_nil before (List.cons_ne_nil (context.fill (applyMarks token' operand')) after))
    rw [shape] at yields
    have whole := YieldsAll.more separated yieldsFirst yields
    rw [← shape] at whole
    simpa using whole

theorem call (found : PlacedAmong bracketed args front token own later before after context operand) {inCall : Bool}
    {name : Text} {opening closing : Text} (dotted : name.all Text.isDottedNameChar = true)
    (opened : Operator.openParen.Spelled opening) (closed : Operator.closeParen.Spelled closing) :
    Placed bracketed inCall (.call name args)
      ({ lexeme := .term name none } :: { lexeme := .operator .openParen opening } :: front) token own
      (later ++ [{ lexeme := .operator .closeParen closing }]) (.argument name before context after) operand := by
  obtain ⟨rfl, written, replaced⟩ := found
  have inside : (inCall || (Context.argument name before context after).inCall) = true := Bool.or_true inCall
  refine ⟨rfl, by rwa [inside], fun token' operand' own' other => ?_⟩
  rw [inside] at other
  obtain ⟨shaped, yields⟩ := replaced _ _ _ other
  refine ⟨.call dotted shaped, ?_, rfl, fun _ => ⟨rfl, rfl⟩⟩
  have whole : Yields bracketed inCall _ _ := .call name opened closed yields
  simpa [Context.fill] using whole

end PlacedAmong

theorem split_cases {α : Type} {left right front rest : List α} {middle x : α}
    (whole : left ++ middle :: right = front ++ x :: rest) :
    (∃ more, left = front ++ x :: more ∧ rest = more ++ middle :: right) ∨ middle = x ∨
      ∃ more, front = left ++ middle :: more ∧ right = more ++ x :: rest := by
  rcases List.append_eq_append_iff.mp whole with ⟨more, rfl, same⟩ | ⟨more, rfl, same⟩
  · cases more with
    | nil => exact .inr (.inl (List.cons.inj same).1)
    | cons y more =>
        obtain ⟨rfl, rfl⟩ := List.cons.inj same
        exact .inr (.inr ⟨more, rfl, rfl⟩)
  · cases more with
    | nil => exact .inr (.inl (List.cons.inj same).1.symm)
    | cons y more =>
        obtain ⟨rfl, rfl⟩ := List.cons.inj same
        exact .inl ⟨more, rfl, rfl⟩

theorem place_suffix (left : List Token) {right : List Token}
    (place : ∀ last ∈ (left ++ right).getLast?, Token.atOperandStart (some last.lexeme) = true) :
    ∀ last ∈ right.getLast?, Token.atOperandStart (some last.lexeme) = true := by
  intro last found
  refine place last ?_
  rw [List.getLast?_append, Option.mem_def.mp found]
  rfl

theorem place_marked {first : Token} {negated inverted : Bool} {front : List Token}
    (place : ∀ last ∈ (⟨first.lexeme, negated, inverted⟩ :: front).getLast?,
      Token.atOperandStart (some last.lexeme) = true) :
    ∀ last ∈ (first :: front).getLast?, Token.atOperandStart (some last.lexeme) = true := by
  cases front with
  | nil =>
      intro last found
      simp only [List.getLast?_singleton, Option.mem_def, Option.some.injEq] at found
      subst found
      exact place ⟨first.lexeme, negated, inverted⟩ (by simp)
  | cons second front =>
      rw [List.getLast?_cons_cons] at place ⊢
      exact place

/-- Wherever an operand may start among the tokens of a tree, one does, and it divides them. -/
def Divides (bracketed : Text → Except Malformed Expr) (inCall : Bool) (e : Expr) (tokens : List Token) : Prop :=
  ∀ ⦃front rest : List Token⦄ ⦃token : Token⦄, tokens = front ++ token :: rest →
    Token.startsOperand token.lexeme = true →
    (∀ last ∈ front.getLast?, Token.atOperandStart (some last.lexeme) = true) →
    ∃ own later context operand, rest = own ++ later ∧ Placed bracketed inCall e front token own later context operand

def DividesAll (bracketed : Text → Except Malformed Expr) (args : List Expr) (tokens : List Token) : Prop :=
  ∀ ⦃front rest : List Token⦄ ⦃token : Token⦄, tokens = front ++ token :: rest →
    Token.startsOperand token.lexeme = true →
    (∀ last ∈ front.getLast?, Token.atOperandStart (some last.lexeme) = true) →
    ∃ own later before after context operand, rest = own ++ later ∧
      PlacedAmong bracketed args front token own later before after context operand

theorem WellShaped.of_call {inCall : Bool} {name : Text} {args : List Expr}
    (shaped : WellShaped inCall (.call name args)) :
    ∀ arg ∈ args, WellShaped true arg := by
  cases shaped with
  | call _ inside => exact inside

theorem WellShaped.of_binary {inCall : Bool} {op : BinaryOp} {left right : Expr}
    (shaped : WellShaped inCall (.binary op left right)) : WellShaped inCall left ∧ WellShaped inCall right := by
  cases shaped with
  | binary _ _ shapedLeft shapedRight => exact ⟨shapedLeft, shapedRight⟩

-- What stands between the parts of a tree starts no operand, so the place lies within a part.
section Parts

variable {inCall : Bool} {e : Expr} {args : List Expr} {tokens others : List Token} {first : Token}

theorem divides_alone (shaped : WellShaped inCall e) (yields : Yields bracketed inCall e [first])
    (unary : ∀ op left right, e ≠ .binary op left right) : Divides bracketed inCall e [first] := by
  intro front rest token whole starts place
  rcases front with _ | ⟨_, _ | _⟩ <;> cases whole
  exact placed_here shaped yields unary

theorem Divides.group (inner : Divides bracketed inCall e tokens) (shaped : WellShaped inCall e)
    (yields : Yields bracketed inCall e tokens) {opening closing : Text} (opened : Operator.openParen.Spelled opening)
    (closed : Operator.closeParen.Spelled closing) :
    Divides bracketed inCall (.group false e)
      ({ lexeme := .operator .openParen opening } :: (tokens ++ [{ lexeme := .operator .closeParen closing }])) := by
  intro front rest token whole starts place
  cases front with
  | nil =>
      cases whole
      exact placed_here (.group shaped) (.group opened closed yields) nofun
  | cons outer front =>
      obtain ⟨rfl, inside⟩ := List.cons.inj whole
      rcases split_cases inside with ⟨more, rfl, rfl⟩ | same | ⟨more, -, none⟩
      · obtain ⟨own, later, context, operand, rfl, found⟩ := inner rfl starts (place_suffix [_] place)
        exact ⟨own, _, _, _, List.append_assoc .., found.group opened closed⟩
      · subst same
        cases starts
      · exact absurd none (by simp)

theorem DividesAll.call (inner : DividesAll bracketed args tokens) (yields : YieldsAll bracketed args tokens)
    {name opening closing : Text} (shaped : WellShaped inCall (.call name args))
    (opened : Operator.openParen.Spelled opening) (closed : Operator.closeParen.Spelled closing) :
    Divides bracketed inCall (.call name args)
      ({ lexeme := .term name none } :: { lexeme := .operator .openParen opening } ::
        (tokens ++ [{ lexeme := .operator .closeParen closing }])) := by
  intro front rest token whole starts place
  rcases front with _ | ⟨outer, _ | ⟨opening, front⟩⟩
  · cases whole
    exact placed_here shaped (.call name opened closed yields) nofun
  · obtain ⟨rfl, -⟩ := List.cons.inj whole
    cases place _ rfl
  · obtain ⟨rfl, inside⟩ := List.cons.inj whole
    obtain ⟨rfl, arguments⟩ := List.cons.inj inside
    rcases split_cases arguments with ⟨more, rfl, rfl⟩ | same | ⟨more, -, none⟩
    · cases shaped with
      | call dotted _ =>
          obtain ⟨own, later, before, after, context, operand, rfl, found⟩ :=
            inner rfl starts (place_suffix [_, _] place)
          exact ⟨own, _, _, _, List.append_assoc .., found.call dotted opened closed⟩
    · subst same
      cases starts
    · exact absurd none (by simp)

theorem Divides.negate (inner : Divides bracketed inCall e (first :: others)) (plain : e.isOperand = true)
    (shaped : WellShaped inCall e) (yields : Yields bracketed inCall e (first :: others)) :
    Divides bracketed inCall (.negate e) ({ first with negated := true } :: others) := by
  intro front rest token whole starts place
  cases front with
  | nil =>
      obtain ⟨rfl, rfl⟩ := List.cons.inj whole
      exact placed_here (.negate plain shaped) (.negate yields) nofun
  | cons outer front =>
      obtain ⟨rfl, rfl⟩ := List.cons.inj whole
      have split : first :: (front ++ token :: rest) = (first :: front) ++ token :: rest := rfl
      obtain ⟨own, later, context, operand, same, found⟩ := inner split starts (place_marked place)
      exact ⟨own, later, _, _, same, found.negate plain⟩

theorem Divides.invert (inner : Divides bracketed inCall e (first :: others)) (signed : e.isSigned = true)
    (shaped : WellShaped inCall e) (yields : Yields bracketed inCall e (first :: others)) :
    Divides bracketed inCall (.invert e) ({ first with inverted := true } :: others) := by
  intro front rest token whole starts place
  cases front with
  | nil =>
      obtain ⟨rfl, rfl⟩ := List.cons.inj whole
      exact placed_here (.invert signed shaped) (.invert yields) nofun
  | cons outer front =>
      obtain ⟨rfl, rfl⟩ := List.cons.inj whole
      have split : first :: (front ++ token :: rest) = (first :: front) ++ token :: rest := rfl
      obtain ⟨own, later, context, operand, same, found⟩ := inner split starts (place_marked place)
      exact ⟨own, later, _, _, same, found.invert signed⟩

theorem Divides.binary {left right : Expr} {op : BinaryOp} (inner : Divides bracketed inCall left tokens)
    (inner' : Divides bracketed inCall right others) (yields : Yields bracketed inCall left tokens)
    (yields' : Yields bracketed inCall right others) {spelling : Text} (spelled : (Operator.binary op).Spelled spelling)
    (shaped : WellShaped inCall (.binary op left right)) :
    Divides bracketed inCall (.binary op left right)
      (tokens ++ { lexeme := .operator (.binary op) spelling } :: others) := by
  intro front rest token whole starts place
  cases shaped with
  | binary tight tighter shapedLeft shapedRight =>
      rcases split_cases whole with ⟨more, rfl, rfl⟩ | same | ⟨more, rfl, rfl⟩
      · obtain ⟨own, later, context, operand, rfl, found⟩ := inner rfl starts place
        exact ⟨own, _, _, _, List.append_assoc .., found.onLeft spelled tight tighter shapedRight yields'⟩
      · subst same
        cases starts
      · obtain ⟨own, later, context, operand, same, found⟩ :=
          inner' rfl starts (place_suffix [_] (place_suffix _ place))
        exact ⟨own, later, _, _, same, found.onRight spelled tight tighter shapedLeft yields⟩

theorem DividesAll.more {next : Expr} (inner : Divides bracketed true e tokens)
    (inner' : DividesAll bracketed (next :: args) others) (yields : Yields bracketed true e tokens)
    (yields' : YieldsAll bracketed (next :: args) others) {comma : Text} (separated : Operator.comma.Spelled comma)
    (shaped : ∀ arg ∈ e :: next :: args, WellShaped true arg) :
    DividesAll bracketed (e :: next :: args) (tokens ++ { lexeme := .operator .comma comma } :: others) := by
  intro front rest token whole starts place
  rcases split_cases whole with ⟨more, rfl, rfl⟩ | same | ⟨more, rfl, rfl⟩
  · obtain ⟨own, later, context, operand, rfl, found⟩ := inner rfl starts place
    exact ⟨own, _, _, _, _, _, List.append_assoc ..,
      found.head separated yields' fun arg member => shaped arg (List.mem_cons_of_mem _ member)⟩
  · subst same
    cases starts
  · obtain ⟨own, later, before, after, context, operand, same, found⟩ :=
      inner' rfl starts (place_suffix [_] (place_suffix _ place))
    exact ⟨own, later, _, _, _, _, same, found.tail separated yields (shaped _ List.mem_cons_self)⟩

end Parts

mutual

/-- A token that starts an operand, and stands where one may start, divides the tokens of a tree. -/
theorem Yields.placed_at {inCall : Bool} {e : Expr} {tokens : List Token} (yields : Yields bracketed inCall e tokens)
    (shaped : WellShaped inCall e) : Divides bracketed inCall e tokens := by
  match yields with
  | .term text => exact divides_alone shaped (.term text) nofun
  | .element name known => exact divides_alone shaped (.element name known) nofun
  | .quoted text => exact divides_alone shaped (.quoted text) nofun
  | .bracket known => exact divides_alone shaped (.bracket known) nofun
  | .group opened closed inner =>
      exact (inner.placed_at shaped.of_group).group shaped.of_group inner opened closed
  | .call name opened closed args =>
      exact (args.placed_at shaped.of_call).call args shaped opened closed
  | .negate inner =>
      cases shaped with
      | negate plain shapedInner => exact (inner.placed_at shapedInner).negate plain shapedInner inner
  | .invert inner =>
      cases shaped with
      | invert signed shapedInner => exact (inner.placed_at shapedInner).invert signed shapedInner inner
  | .binary spelled left right =>
      obtain ⟨shapedLeft, shapedRight⟩ := shaped.of_binary
      exact (left.placed_at shapedLeft).binary (right.placed_at shapedRight) left right spelled shaped

theorem YieldsAll.placed_at {args : List Expr} {tokens : List Token} (yields : YieldsAll bracketed args tokens)
    (shaped : ∀ arg ∈ args, WellShaped true arg) : DividesAll bracketed args tokens := by
  match yields with
  | .none => exact fun _ _ _ whole => absurd whole (by simp)
  | .one first =>
      intro front rest token whole starts place
      obtain ⟨own, later, context, operand, same, found⟩ :=
        first.placed_at (shaped _ List.mem_cons_self) whole starts place
      exact ⟨own, later, _, _, _, _, same, found.one⟩
  | .more separated first others =>
      exact .more (first.placed_at (shaped _ List.mem_cons_self))
        (others.placed_at fun arg member => shaped arg (List.mem_cons_of_mem _ member)) first others separated shaped

end

end Expr

end CommandScript
