import CommandScript.Proofs.Grammar.Shape

/-! What is in the grammar the parser accepts: from the tokens that a well-shaped tree is written with, it gives back
the tree. A level of binding is a chain of operands of the next tighter level, so what is read of a tree is followed up
to the point where its chain goes on. -/

namespace CommandScript.Expr

variable {source : Text} {bracketed : Text → Except Malformed Expr}

/-- Where an expression ends: behind the last token, at a comma, or at a closing parenthesis. -/
def Ends : List Token → Prop
  | [] => True
  | token :: _ => token.lexeme.isOperator .comma = true ∨ token.lexeme.isOperator .closeParen = true

/-- Tokens that may follow an operand of a level: no opening parenthesis, and no operator that binds more tightly. -/
structure Follows (bound : Option Level) (rest : List Token) : Prop where
  noCall : startsWith .openParen rest = false
  looser : ∀ op spelling negated inverted more,
    rest = ⟨.operator (.binary op) spelling, negated, inverted⟩ :: more → op.level.rank ≤ rankOf bound

namespace Ends

theorem noOperator {rest : List Token} (ends : Ends rest) (op : BinaryOp) (spelling : Text) (negated inverted : Bool)
    (more : List Token) : rest ≠ ⟨.operator (.binary op) spelling, negated, inverted⟩ :: more := by
  rintro rfl
  simp [Ends, Lexeme.isOperator, Lexeme.operator?] at ends

theorem noCall {rest : List Token} (ends : Ends rest) : startsWith .openParen rest = false := by
  cases rest with
  | nil => rfl
  | cons token more =>
      obtain ⟨lexeme, negated, inverted⟩ := token
      cases lexeme with
      | operator op spelling =>
          cases op <;> simp_all [Ends, startsWith, Lexeme.isOperator, Lexeme.operator?]
      | _ => rfl

theorem follows {rest : List Token} (ends : Ends rest) (bound : Option Level) : Follows bound rest :=
  ⟨ends.noCall, fun op spelling negated inverted more here =>
    (ends.noOperator op spelling negated inverted more here).elim⟩

end Ends

theorem Follows.of_le {outer inner : Option Level} {rest : List Token} (follows : Follows outer rest)
    (looser : rankOf outer ≤ rankOf inner) : Follows inner rest :=
  ⟨follows.noCall, fun op spelling negated inverted more here =>
    Nat.le_trans (follows.looser op spelling negated inverted more here) looser⟩

theorem Follows.operator {op : BinaryOp} (spelling : Text) (rest : List Token) :
    Follows (some op.level) ({ lexeme := .operator (.binary op) spelling } :: rest) := by
  refine ⟨rfl, ?_⟩
  rintro _ _ _ _ _ ⟨⟩
  exact Nat.le_refl _

section

variable (source bracketed) (depth : Nat) (inCall : Bool)

def levelParser (bound : Option Level) : Parse Expr :=
  let atom := primary source bracketed (expression source bracketed depth) inCall
  match bound with
  | none => atom
  | some .product => leveled .product atom
  | some .sum => leveled .sum (leveled .product atom)
  | some .comparison => leveled .comparison (leveled .sum (leveled .product atom))
  | some .logic => leveled .logic (leveled .comparison (leveled .sum (leveled .product atom)))

theorem levelParser_some (level : Level) :
    levelParser source bracketed depth inCall (some level) =
      leveled level (levelParser source bracketed depth inCall level.tighter) := by
  cases level <;> rfl

/-- What a parser does after the operands that were read: it goes on with the operators of its level. -/
def continued : Option Level → Nat → Expr → Parse Expr
  | none, _, e => fun tokens => .ok (e, tokens)
  | some level, rounds, e => chain level (levelParser source bracketed depth inCall level.tighter) rounds e

/-- The parser of a level reads an expression and goes on with what follows it. -/
def Reads (bound : Option Level) (e : Expr) (used rest : List Token) : Prop :=
  ∃ rounds, rest.length ≤ rounds ∧
    levelParser source bracketed depth inCall bound (used ++ rest) =
      continued source bracketed depth inCall bound rounds e rest

end

theorem chain_ends {level : Level} (next : Parse Expr) (rounds : Nat) (left : Expr) {rest : List Token}
    (looser : ∀ op spelling negated inverted more,
      rest = ⟨.operator (.binary op) spelling, negated, inverted⟩ :: more → op.level.rank < level.rank) :
    chain level next rounds left rest = .ok (left, rest) := by
  unfold chain
  split
  · rfl
  · split
    · rename_i op spelling negated inverted more
      have less := looser op spelling negated inverted more rfl
      have other : op.level ≠ level := by
        rintro rfl
        exact Nat.lt_irrefl _ less
      rw [if_neg other]
    · rfl

theorem chain_step {op : BinaryOp} {next : Parse Expr} {left right : Expr} {after rest : List Token}
    (operand : next after = .ok (right, rest)) (spelling : Text) (rounds : Nat) :
    chain op.level next (rounds + 1) left ({ lexeme := .operator (.binary op) spelling } :: after) =
      chain op.level next rounds (.binary op left right) rest := by
  simp [chain, operand, bind, Except.bind]

namespace Reads

variable {depth : Nat} {inCall : Bool} {e : Expr} {used rest : List Token}

theorem read {level : Level} (reads : Reads source bracketed depth inCall level.tighter e used rest)
    (follows : Follows (some level) rest) :
    levelParser source bracketed depth inCall level.tighter (used ++ rest) = .ok (e, rest) := by
  obtain ⟨rounds, -, same⟩ := reads
  rw [same]
  cases inner : level.tighter with
  | none => rfl
  | some tight =>
      apply chain_ends
      intro op spelling negated inverted more here
      have bounded : op.level.rank ≤ level.rank := follows.looser op spelling negated inverted more here
      have step : tight.rank = level.rank + 1 := by
        rw [← rankOf_tighter, inner]
        rfl
      omega

theorem plain {level : Level} (reads : Reads source bracketed depth inCall level.tighter e used rest)
    (follows : Follows (some level) rest) : Reads source bracketed depth inCall (some level) e used rest := by
  refine ⟨rest.length, Nat.le_refl _, ?_⟩
  rw [levelParser_some]
  simp only [leveled, reads.read follows, bind, Except.bind]
  rfl

theorem loosen {outer inner : Option Level} (reads : Reads source bracketed depth inCall inner e used rest)
    (looser : rankOf outer ≤ rankOf inner) (follows : Follows outer rest) :
    Reads source bracketed depth inCall outer e used rest := by
  obtain ⟨gap, apart⟩ := Nat.exists_eq_add_of_le looser
  induction gap generalizing outer with
  | zero => rwa [← rankOf_injective (show rankOf inner = rankOf outer from apart)]
  | succ gap ih =>
      cases outer with
      | none =>
          have bounded := rankOf_le inner
          simp only [rankOf, Option.elim_none] at apart bounded
          omega
      | some level =>
          have step : rankOf level.tighter = rankOf (some level) + 1 := rankOf_tighter level
          have tighter : Follows level.tighter rest := follows.of_le (by omega)
          exact (ih (by omega) tighter (by omega)).plain follows

theorem binary {op : BinaryOp} {left right : Expr} {before after : List Token} (spelling : Text)
    (first : Reads source bracketed depth inCall (some op.level) left before
      ({ lexeme := .operator (.binary op) spelling } :: (after ++ rest)))
    (second : Reads source bracketed depth inCall op.level.tighter right after rest)
    (follows : Follows (some op.level) rest) :
    Reads source bracketed depth inCall (some op.level) (.binary op left right)
      (before ++ { lexeme := .operator (.binary op) spelling } :: after) rest := by
  obtain ⟨rounds, enough, same⟩ := first
  rw [List.length_cons, List.length_append] at enough
  obtain ⟨fewer, rfl⟩ : ∃ fewer, rounds = fewer + 1 := ⟨rounds - 1, by omega⟩
  refine ⟨fewer, by omega, ?_⟩
  rw [List.append_assoc, List.cons_append, same]
  exact chain_step (second.read follows) spelling fewer

end Reads

/-- A parser reads every well-shaped tree that is written with a number of tokens, up to where it ends. -/
def Complete (bracketed : Text → Except Malformed Expr) (inCall : Bool) (size : Nat) (parser : Parse Expr) : Prop :=
  ∀ ⦃e used rest⦄, Yields bracketed inCall e used → WellShaped inCall e → used.length ≤ size → Ends rest →
    parser (used ++ rest) = .ok (e, rest)

theorem expectClose_closing (closing : Text) (rest : List Token) :
    expectClose ({ lexeme := .operator .closeParen closing } :: rest) = .ok rest := rfl

theorem ends_closing (closing : Text) (rest : List Token) :
    Ends ({ lexeme := .operator .closeParen closing } :: rest) := .inr rfl

theorem Yields.length_pos {inCall : Bool} {e : Expr} {tokens : List Token} (yields : Yields bracketed inCall e tokens) :
    0 < tokens.length := by
  obtain ⟨first, rest, rfl, -⟩ := yields.first
  exact Nat.succ_pos _

theorem Yields.not_closing {inCall : Bool} {e : Expr} {tokens : List Token} (yields : Yields bracketed inCall e tokens)
    (rest : List Token) : startsWith .closeParen (tokens ++ rest) = false := by
  obtain ⟨⟨lexeme, negated, inverted⟩, more, rfl, starts⟩ := yields.first
  cases lexeme with
  | operator op spelling => cases op <;> first | rfl | cases starts
  | _ => rfl

theorem YieldsAll.not_closing {arg : Expr} {args : List Expr} {tokens : List Token}
    (yields : YieldsAll bracketed (arg :: args) tokens) (rest : List Token) :
    startsWith .closeParen (tokens ++ rest) = false := by
  cases yields with
  | one first => exact first.not_closing rest
  | more _ first others =>
      rw [List.append_assoc]
      exact first.not_closing _

theorem arguments_last {nested : Parse Expr} {arg : Expr} {closing : Text} {tokens rest : List Token}
    (read : nested tokens = .ok (arg, { lexeme := .operator .closeParen closing } :: rest)) (rounds : Nat) :
    arguments nested (rounds + 1) tokens = .ok ([arg], rest) := by
  simp [arguments, read, startsWith, expectClose_closing, Lexeme.isOperator, Lexeme.operator?, bind, Except.bind, pure,
    Except.pure]

theorem arguments_more {nested : Parse Expr} {arg : Expr} {args : List Expr} {comma : Text}
    {tokens after rest : List Token} {rounds : Nat}
    (read : nested tokens = .ok (arg, { lexeme := .operator .comma comma } :: after))
    (others : arguments nested rounds after = .ok (args, rest)) :
    arguments nested (rounds + 1) tokens = .ok (arg :: args, rest) := by
  simp [arguments, read, others, startsWith, Lexeme.isOperator, Lexeme.operator?, bind, Except.bind, pure, Except.pure]

/-- Arguments are read up to their closing parenthesis; each one takes a token at least. -/
theorem arguments_yields {nested : Parse Expr} {size : Nat} (complete : Complete bracketed true size nested)
    {arg : Expr}
    {args : List Expr} {used : List Token} (yields : YieldsAll bracketed (arg :: args) used)
    (shaped : ∀ other ∈ arg :: args, WellShaped true other) (short : used.length ≤ size) {rounds : Nat}
    (enough : used.length ≤ rounds) (closing : Text) (rest : List Token) :
    arguments nested rounds (used ++ { lexeme := .operator .closeParen closing } :: rest) =
      .ok (arg :: args, rest) := by
  induction args generalizing arg used rounds with
  | nil =>
      cases yields with
      | one first =>
          have filled := first.length_pos
          obtain ⟨fewer, rfl⟩ : ∃ fewer, rounds = fewer + 1 := ⟨rounds - 1, by omega⟩
          exact arguments_last (complete first (shaped arg (by simp)) short (ends_closing closing rest)) fewer
  | cons next args ih =>
      cases yields with
      | @more _ _ _ tokens others comma _ first yieldsMore =>
          rw [List.length_append, List.length_cons] at short enough
          obtain ⟨fewer, rfl⟩ : ∃ fewer, rounds = fewer + 1 := ⟨rounds - 1, by omega⟩
          have further := ih yieldsMore (fun other member => shaped other (by simp [member])) (by omega)
            (show others.length ≤ fewer by omega)
          rw [List.append_assoc]
          exact arguments_more (complete first (shaped arg (by simp)) (by omega) (.inl rfl)) further

theorem callArguments_yields {nested : Parse Expr} {size : Nat} (complete : Complete bracketed true size nested)
    {args : List Expr} {used : List Token} (yields : YieldsAll bracketed args used)
    (shaped : ∀ arg ∈ args, WellShaped true arg) (short : used.length ≤ size) (opening closing : Text)
    (rest : List Token) :
    callArguments nested ({ lexeme := .operator .openParen opening } ::
      (used ++ { lexeme := .operator .closeParen closing } :: rest)) = .ok (args, rest) := by
  cases args with
  | nil =>
      cases yields
      rfl
  | cons arg args =>
      have read := @arguments_yields _ _ _ complete _ _ _ yields shaped short
        (used ++ { lexeme := .operator .closeParen closing } :: rest).length (by simp) closing rest
      unfold callArguments
      simp only [List.drop_one, List.tail_cons, yields.not_closing, Bool.false_eq_true, if_false]
      exact read

theorem WellShaped.of_group {inCall : Bool} {inner : Expr} (shaped : WellShaped inCall (.group false inner)) :
    WellShaped inCall inner := by
  cases shaped with
  | group inside => exact inside

theorem operand_yields {nested : Bool → Parse Expr} {size : Nat}
    (complete : ∀ inCall, Complete bracketed inCall size (nested inCall)) {inCall : Bool} {e : Expr} {first : Token}
    {used : List Token} (yields : Yields bracketed inCall e (first :: used)) (shaped : WellShaped inCall e)
    (bare : e.isOperand = true) (short : used.length ≤ size) {rest : List Token}
    (noCall : startsWith .openParen rest = false) :
    operand bracketed nested inCall first.lexeme (used ++ rest) = .ok (e, rest) ∧
      first = { lexeme := first.lexeme } := by
  generalize whole : first :: used = tokens at yields
  cases yields with
  | term text =>
      cases whole
      simp [operand, noCall]
  | @element _ name inner index known =>
      cases whole
      simp [operand, noCall, known, bind, Except.bind, pure, Except.pure]
  | quoted text =>
      cases whole
      exact ⟨rfl, rfl⟩
  | bracket known =>
      cases whole
      simp [operand, known, bind, Except.bind, pure, Except.pure]
  | @group _ inner tokens opening closing _ _ yieldsInner =>
      rw [List.cons_append, List.cons.injEq] at whole
      obtain ⟨rfl, rfl⟩ := whole
      rw [List.length_append] at short
      have read := complete inCall yieldsInner shaped.of_group (by omega) (ends_closing closing rest)
      have filled := yieldsInner.not_closing ({ lexeme := .operator .closeParen closing } :: rest)
      simp [operand, filled, read, expectClose_closing, bind, Except.bind, pure, Except.pure]
  | @call _ name args tokens opening closing _ _ yieldsAll =>
      rw [List.cons_append, List.cons.injEq] at whole
      obtain ⟨rfl, rfl⟩ := whole
      cases shaped with
      | call named shapedAll =>
          simp only [List.cons_append, List.length_cons, List.length_append] at short
          have read := callArguments_yields (complete true) yieldsAll shapedAll (by omega) opening closing rest
          have opens : startsWith .openParen ({ lexeme := .operator .openParen opening } ::
              (tokens ++ { lexeme := .operator .closeParen closing } :: rest)) = true := rfl
          simp [operand, opens, named, read, bind, Except.bind, pure, Except.pure]
  | negate _ => cases bare
  | invert _ => cases bare
  | binary _ _ _ => cases bare

theorem signed_yields {nested : Bool → Parse Expr} {size : Nat}
    (complete : ∀ inCall, Complete bracketed inCall size (nested inCall)) {inCall : Bool} {e : Expr} {first : Token}
    {used : List Token} (yields : Yields bracketed inCall e (first :: used)) (shaped : WellShaped inCall e)
    (signed : e.isSigned = true) (short : used.length ≤ size) {rest : List Token}
    (noCall : startsWith .openParen rest = false) :
    ∃ inner, operand bracketed nested inCall first.lexeme (used ++ rest) = .ok (inner, rest) ∧
      first.inverted = false ∧ applyMarks first inner = e := by
  by_cases bare : e.isOperand = true
  · obtain ⟨read, unmarked⟩ := operand_yields complete yields shaped bare short noCall
    refine ⟨e, read, ?_, ?_⟩
    · rw [unmarked]
    · rw [unmarked]
      rfl
  · cases shaped with
    | @negate _ inner bareInner shapedInner =>
        generalize whole : first :: used = tokens at yields
        cases yields with
        | @negate _ _ plain _ yieldsInner =>
            obtain ⟨rfl, rfl⟩ := List.cons.inj whole
            obtain ⟨read, unmarked⟩ := operand_yields complete yieldsInner shapedInner bareInner short noCall
            refine ⟨inner, read, ?_, ?_⟩
            · rw [unmarked]
            · rw [unmarked]
              rfl
    | _ => simp_all [isSigned, isOperand]

theorem primary_yields {nested : Bool → Parse Expr} {size : Nat}
    (complete : ∀ inCall, Complete bracketed inCall size (nested inCall)) {inCall : Bool} {e : Expr}
    {used : List Token} (yields : Yields bracketed inCall e used) (shaped : WellShaped inCall e)
    (atomic : e.rank = 4) (short : used.length ≤ size + 1) {rest : List Token}
    (noCall : startsWith .openParen rest = false) :
    primary source bracketed nested inCall (used ++ rest) = .ok (e, rest) := by
  have reading : ∀ {token inner after}, operand bracketed nested inCall token.lexeme after = .ok (inner, rest) →
      primary source bracketed nested inCall (token :: after) = .ok (applyMarks token inner, rest) := by
    intro token inner after read
    simp [primary, read, bind, Except.bind, pure, Except.pure]
  by_cases signed : e.isSigned = true
  · obtain ⟨first, others, rfl, -⟩ := yields.first
    obtain ⟨inner, read, -, rfl⟩ := signed_yields complete yields shaped signed (Nat.le_of_succ_le_succ short) noCall
    exact reading read
  · cases shaped with
    | invert signedInner shapedInner =>
        cases yields with
        | @invert _ _ plain others yieldsInner =>
            obtain ⟨inner, read, upright, rfl⟩ :=
              signed_yields complete yieldsInner shapedInner signedInner (Nat.le_of_succ_le_succ short) noCall
            have marked := @reading { plain with inverted := true } _ _ read
            simpa [applyMarks, upright] using marked
    | @binary _ op _ _ _ _ _ _ => exact absurd atomic (Nat.ne_of_lt op.level.rank_lt)
    | _ => simp_all [isSigned, isOperand]

/-- What is read of a tree's tokens is the tree, and the parser of a level goes on with what follows. The recursion is
on how the tree is written; an operator takes its left operand from the chain of its own level. -/
theorem reads_yields {depth : Nat}
    (complete : ∀ inCall, Complete bracketed inCall depth (expression source bracketed depth inCall)) {inCall : Bool}
    {e : Expr} {used : List Token} (yields : Yields bracketed inCall e used)
    (shaped : WellShaped inCall e) (short : used.length ≤ depth + 1) {bound : Option Level}
    (tight : rankOf bound ≤ e.rank) {rest : List Token} (follows : Follows bound rest) :
    Reads source bracketed depth inCall bound e used rest := by
  by_cases atomic : e.rank = 4
  · have read := @primary_yields source _ _ _ complete _ _ _ yields shaped atomic short _ follows.noCall
    have primary : Reads source bracketed depth inCall none e used rest := ⟨rest.length, Nat.le_refl _, read⟩
    exact primary.loosen (rankOf_le bound) follows
  · match yields, shaped with
    | @Yields.binary _ _ op left right before after spelling _ yieldsLeft yieldsRight,
        .binary tightLeft tightRight shapedLeft shapedRight =>
        rw [List.length_append, List.length_cons] at short
        have inner : Follows (some op.level) rest := follows.of_le tight
        have step : rankOf op.level.tighter = rankOf (some op.level) + 1 := rankOf_tighter op.level
        have boundLeft : rankOf (some op.level) ≤ left.rank := tightLeft
        have boundRight : rankOf op.level.tighter ≤ right.rank := Nat.le_trans (Nat.le_of_eq step) tightRight
        have first := reads_yields complete yieldsLeft shapedLeft (by omega) boundLeft
          (.operator spelling (after ++ rest))
        have second := reads_yields complete yieldsRight shapedRight (by omega) boundRight (inner.of_le (by omega))
        exact (Reads.binary spelling first second inner).loosen tight follows
    | .term _, _ | .element _ _, _ | .quoted _, _ | .group _ _ _, _ | .bracket _, _ | .call _ _ _ _, _ | .negate _, _
    | .invert _, _ => exact absurd rfl atomic

theorem expression_complete (depth : Nat) (inCall : Bool) :
    Complete bracketed inCall depth (expression source bracketed depth inCall) := by
  induction depth generalizing inCall with
  | zero =>
      intro e used rest yields shaped short ends
      exact absurd yields.length_pos (by omega)
  | succ depth ih =>
      intro e used rest yields shaped short ends
      obtain ⟨rounds, -, read⟩ := reads_yields ih yields shaped short (Nat.zero_le _) (ends.follows (some .logic))
      refine read.trans (chain_ends _ _ _ ?_)
      intro op spelling negated inverted more here
      exact absurd here (ends.noOperator op spelling negated inverted more)

theorem ofTokens_complete {e : Expr} {tokens : List Token} (shaped : WellShaped false e)
    (yields : Yields bracketed false e tokens) : ofTokens source bracketed tokens = .ok e := by
  have filled : tokens.isEmpty = false := by
    obtain ⟨first, rest, rfl, -⟩ := yields.first
    rfl
  have read := @expression_complete source bracketed (tokens.length + 1) false e tokens [] yields shaped
    (Nat.le_succ _) trivial
  rw [List.append_nil] at read
  simp [ofTokens, filled, read, bind, Except.bind, pure, Except.pure]

end CommandScript.Expr
