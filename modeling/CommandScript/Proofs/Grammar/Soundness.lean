import CommandScript.Proofs.Grammar.Tokens

/-! What the parser accepts is in the grammar: the tree is well-shaped, and the tokens that were taken are those that
it is written with. -/

namespace CommandScript

/-- The tokens of a text whose brackets hold well-shaped trees. -/
structure Token.Readable (bracketed : Text → Except Malformed Expr) (size : Nat) (tokens : List Token) : Prop
    extends Lexed size tokens where
  inside : ∀ token ∈ tokens, ∀ inner e, token.lexeme.inside? = some inner → bracketed inner = .ok e →
    Expr.WellShaped false e

namespace Token.Readable

variable {bracketed : Text → Except Malformed Expr} {size : Nat} {token : Token} {used rest : List Token}

theorem suffix (readable : Readable bracketed size (used ++ rest)) : Readable bracketed size rest where
  toLexed := readable.toLexed.suffix
  inside other member := readable.inside other (by simp [member])

theorem tail (readable : Readable bracketed size (token :: rest)) : Readable bracketed size rest :=
  @suffix bracketed size [token] rest readable

theorem operator (readable : Readable bracketed size (token :: rest)) {op : Operator}
    (here : token.lexeme.isOperator op = true) (other : op ≠ .openParen) :
    ∃ spelling, op.Spelled spelling ∧ token = { lexeme := .operator op spelling } := by
  have regular := readable.regular token (by simp)
  have marked := readable.marked token (by simp)
  obtain ⟨lexeme, negated, inverted⟩ := token
  cases lexeme with
  | operator found spelling =>
      have same : found = op := by simpa [Lexeme.isOperator, Lexeme.operator?] using here
      subst same
      have unmarked : isMarked ⟨.operator found spelling, negated, inverted⟩ = false := by
        rw [Bool.eq_false_iff]
        intro marks
        have starts := marked marks
        exact other (by simpa [startsOperand, Lexeme.isValue, Lexeme.isOperator, Lexeme.operator?] using starts)
      exact ⟨spelling, regular.spelled rfl, eq_unmarked unmarked⟩
  | quoted body => cases here
  | term text index => cases here
  | bracket inner => cases here

theorem opening {next : Token} (readable : Readable bracketed size (token :: next :: rest))
    (value : token.lexeme.isValue = true) (here : next.lexeme.isOperator .openParen = true) :
    ∃ spelling, Operator.openParen.Spelled spelling ∧ next = { lexeme := .operator .openParen spelling } := by
  have regular := readable.regular next (by simp)
  have beside : Beside token next := (List.isChain_cons_cons.mp readable.beside).1
  have ended : atOperandStart (some token.lexeme) = false := by
    cases found : token.lexeme with
    | operator op spelling =>
        rw [found] at value
        cases value
    | quoted body => rfl
    | term text index => rfl
    | bracket inner => rfl
  have unmarked : next.isMarked = false := by
    rw [Bool.eq_false_iff]
    intro marks
    rw [beside marks] at ended
    cases ended
  have same := eq_unmarked unmarked
  cases found : next.lexeme with
  | operator op spelling =>
      rw [found] at here same
      have paren : op = .openParen := by simpa [Lexeme.isOperator, Lexeme.operator?] using here
      subst paren
      exact ⟨spelling, regular.spelled found, same⟩
  | quoted body =>
      rw [found] at here
      cases here
  | term text index =>
      rw [found] at here
      cases here
  | bracket inner =>
      rw [found] at here
      cases here

end Token.Readable

namespace Expr

open Token (Readable)

variable {source : Text} {bracketed : Text → Except Malformed Expr} {size : Nat} {inCall : Bool}

/-- A parser takes the tokens of a well-shaped tree whose outermost operator binds as tightly as a rank says. -/
def Sound (bracketed : Text → Except Malformed Expr) (size : Nat) (inCall : Bool) (rank : Nat) (parser : Parse Expr) :
    Prop :=
  ∀ ⦃tokens e rest⦄, Readable bracketed size tokens → parser tokens = .ok (e, rest) →
    ∃ used, tokens = used ++ rest ∧ Yields bracketed inCall e used ∧ WellShaped inCall e ∧ rank ≤ e.rank

theorem startsWith_eq_true {op : Operator} {tokens : List Token} (starts : startsWith op tokens = true) :
    ∃ token rest, tokens = token :: rest ∧ token.lexeme.isOperator op = true := by
  cases tokens with
  | nil => cases starts
  | cons token rest => exact ⟨token, rest, rfl, starts⟩

theorem expectClose_sound {tokens rest : List Token} (readable : Readable bracketed size tokens)
    (closed : expectClose tokens = .ok rest) :
    ∃ spelling, Operator.closeParen.Spelled spelling ∧
      tokens = { lexeme := .operator .closeParen spelling } :: rest := by
  cases tokens with
  | nil => cases closed
  | cons token more =>
      by_cases here : token.lexeme.isOperator .closeParen = true
      · rw [expectClose, if_pos here] at closed
        cases closed
        obtain ⟨spelling, spelled, rfl⟩ := readable.operator here (by decide)
        exact ⟨spelling, spelled, rfl⟩
      · rw [expectClose, if_neg here] at closed
        cases closed

theorem arguments_sound {nested : Parse Expr} (sound : Sound bracketed size true 0 nested) {rounds : Nat}
    {tokens rest : List Token} {args : List Expr} (readable : Readable bracketed size tokens)
    (parsed : arguments nested rounds tokens = .ok (args, rest)) :
    ∃ used spelling, Operator.closeParen.Spelled spelling ∧
      tokens = used ++ { lexeme := .operator .closeParen spelling } :: rest ∧ YieldsAll bracketed args used ∧
      args ≠ [] ∧ ∀ arg ∈ args, WellShaped true arg := by
  induction rounds generalizing tokens args with
  | zero => cases parsed
  | succ rounds ih =>
      obtain ⟨⟨arg, after⟩, first, others⟩ := bind_eq_ok.mp parsed
      obtain ⟨before, rfl, yields, shaped, -⟩ := sound readable first
      simp only at others
      split at others
      · rename_i comma
        obtain ⟨token, inside, rfl, here⟩ := startsWith_eq_true comma
        obtain ⟨mark, separated, rfl⟩ := readable.suffix.operator here (by decide)
        obtain ⟨⟨more, last⟩, next, same⟩ := bind_eq_ok.mp others
        cases same
        obtain ⟨used, spelling, spelled, rfl, yieldsMore, filled, shapedMore⟩ := ih readable.suffix.tail next
        obtain ⟨second, further, rfl⟩ := List.exists_cons_of_ne_nil filled
        refine ⟨before ++ { lexeme := .operator .comma mark } :: used, spelling, spelled, by simp,
          .more separated yields yieldsMore, by simp, ?_⟩
        intro other member
        rcases List.mem_cons.mp member with rfl | inner
        · exact shaped
        · exact shapedMore other inner
      · obtain ⟨last, closed, same⟩ := bind_eq_ok.mp others
        cases same
        obtain ⟨spelling, spelled, rfl⟩ := expectClose_sound readable.suffix closed
        refine ⟨before, spelling, spelled, rfl, .one yields, by simp, ?_⟩
        rintro other (_ | ⟨_, ⟨⟩⟩)
        exact shaped

theorem callArguments_sound {nested : Parse Expr} (sound : Sound bracketed size true 0 nested) {token : Token}
    {tokens rest : List Token} {args : List Expr} (readable : Readable bracketed size (token :: tokens))
    (value : token.lexeme.isValue = true) (starts : startsWith .openParen tokens = true)
    (parsed : callArguments nested tokens = .ok (args, rest)) :
    ∃ used opening closing, Operator.openParen.Spelled opening ∧ Operator.closeParen.Spelled closing ∧
      tokens = { lexeme := .operator .openParen opening } :: used ++
        { lexeme := .operator .closeParen closing } :: rest ∧
      YieldsAll bracketed args used ∧ ∀ arg ∈ args, WellShaped true arg := by
  obtain ⟨next, inside, rfl, here⟩ := startsWith_eq_true starts
  obtain ⟨opening, opened, rfl⟩ := readable.opening value here
  simp only [callArguments, List.drop_one, List.tail_cons] at parsed
  split at parsed
  · rename_i empty
    obtain ⟨last, after, rfl, closes⟩ := startsWith_eq_true empty
    obtain ⟨closing, closed, rfl⟩ := readable.tail.tail.operator closes (by decide)
    cases parsed
    exact ⟨[], opening, closing, opened, closed, rfl, .none, nofun⟩
  · obtain ⟨used, closing, closed, rfl, yields, -, shaped⟩ := arguments_sound sound readable.tail.tail parsed
    exact ⟨used, opening, closing, opened, closed, rfl, yields, shaped⟩

theorem operand_sound {nested : Bool → Parse Expr} (sound : ∀ inCall, Sound bracketed size inCall 0 (nested inCall))
    {token : Token} {tokens rest : List Token} {e : Expr} (readable : Readable bracketed size (token :: tokens))
    (parsed : operand bracketed nested inCall token.lexeme tokens = .ok (e, rest)) :
    ∃ used, tokens = used ++ rest ∧ Yields bracketed inCall e ({ lexeme := token.lexeme } :: used) ∧
      WellShaped inCall e ∧ e.isOperand = true := by
  have regular := readable.regular token (by simp)
  have inside := readable.inside token (by simp)
  obtain ⟨lexeme, negated, inverted⟩ := token
  cases lexeme with
  | operator op spelling =>
      cases op with
      | openParen =>
          simp only [operand] at parsed
          split at parsed
          · cases parsed
          · obtain ⟨⟨inner, after⟩, first, others⟩ := bind_eq_ok.mp parsed
            obtain ⟨last, closed, same⟩ := bind_eq_ok.mp others
            cases same
            obtain ⟨used, rfl, yields, shaped, -⟩ := sound inCall readable.tail first
            obtain ⟨closing, spelled, rfl⟩ := expectClose_sound readable.tail.suffix closed
            have grouped := Yields.group (regular.spelled rfl) spelled yields
            exact ⟨_, by simp, grouped, .group shaped, rfl⟩
      | closeParen => cases parsed
      | comma => cases parsed
      | not => cases parsed
      | binary op => cases parsed
  | quoted body =>
      cases parsed
      exact ⟨[], rfl, .quoted body, .quoted body, rfl⟩
  | bracket text =>
      obtain ⟨inner, first, same⟩ := bind_eq_ok.mp parsed
      cases same
      exact ⟨[], rfl, .bracket first, .bracket (inside text inner rfl first), rfl⟩
  | term name index =>
      have filled := regular.filled rfl
      simp only [operand] at parsed
      split at parsed
      · rename_i calls
        split at parsed
        · cases parsed
        · rename_i valid
          simp only [Bool.or_eq_true, not_or, Bool.not_eq_true', Bool.not_eq_false, Option.not_isSome_iff_eq_none]
            at valid
          obtain ⟨rfl, named⟩ := valid
          obtain ⟨⟨args, after⟩, first, same⟩ := bind_eq_ok.mp parsed
          cases same
          obtain ⟨used, opening, closing, opened, closed, rfl, yields, shaped⟩ :=
            callArguments_sound (sound true) readable rfl calls first
          have called := @Yields.call bracketed inCall name _ _ _ _ opened closed yields
          exact ⟨_, by simp, called, .call named shaped, rfl⟩
      · cases index with
        | none =>
            cases parsed
            exact ⟨[], rfl, .term name, .term filled, rfl⟩
        | some text =>
            obtain ⟨inner, first, same⟩ := bind_eq_ok.mp parsed
            cases same
            exact ⟨[], rfl, .element name first, .element filled (inside text inner rfl first), rfl⟩

/-- The marks of the first token stand around the operand, the sign inside. -/
theorem applyMarks_sound {token : Token} {used : List Token} {e : Expr}
    (yields : Yields bracketed inCall e ({ lexeme := token.lexeme } :: used)) (shaped : WellShaped inCall e)
    (operand : e.isOperand = true) :
    Yields bracketed inCall (applyMarks token e) (token :: used) ∧ WellShaped inCall (applyMarks token e) ∧
      (applyMarks token e).rank = 4 := by
  have signed := isSigned_of_isOperand operand
  obtain ⟨lexeme, negated, inverted⟩ := token
  cases negated with
  | false =>
      cases inverted with
      | false => exact ⟨yields, shaped, rank_of_isSigned signed⟩
      | true => exact ⟨.invert yields, .invert signed shaped, rfl⟩
  | true =>
      cases inverted with
      | false => exact ⟨.negate yields, .negate operand shaped, rfl⟩
      | true => exact ⟨.invert (.negate yields), .invert operand (.negate operand shaped), rfl⟩

theorem primary_sound {nested : Bool → Parse Expr} (sound : ∀ inCall, Sound bracketed size inCall 0 (nested inCall)) :
    Sound bracketed size inCall 4 (primary source bracketed nested inCall) := by
  intro tokens e rest readable parsed
  cases tokens with
  | nil => cases parsed
  | cons token tokens =>
      obtain ⟨⟨inner, after⟩, first, same⟩ := bind_eq_ok.mp parsed
      cases same
      obtain ⟨used, rfl, yields, shaped, operand⟩ := operand_sound sound readable first
      obtain ⟨marked, shapedMarked, rank⟩ := applyMarks_sound yields shaped operand
      exact ⟨token :: used, rfl, marked, shapedMarked, Nat.le_of_eq rank.symm⟩

theorem chain_cases {level : Level} {next : Parse Expr} {rounds : Nat} {left e : Expr} {tokens rest : List Token}
    (parsed : chain level next (rounds + 1) left tokens = .ok (e, rest)) :
    (e = left ∧ rest = tokens) ∨
      ∃ op token after, tokens = token :: after ∧ token.lexeme.isOperator (.binary op) = true ∧ op.level = level ∧
        (do let (right, rest) ← next after; chain level next rounds (binary op left right) rest) = .ok (e, rest) := by
  unfold chain at parsed
  split at parsed
  · rename_i op spelling negated inverted after
    split at parsed
    · rename_i same
      refine .inr ⟨op, _, after, rfl, ?_, same, parsed⟩
      simp [Lexeme.isOperator, Lexeme.operator?]
    · cases parsed
      exact .inl ⟨rfl, rfl⟩
  · cases parsed
    exact .inl ⟨rfl, rfl⟩

theorem chain_sound {level : Level} {next : Parse Expr} (sound : Sound bracketed size inCall (level.rank + 1) next)
    {rounds : Nat} {left e : Expr} {before tokens rest : List Token} (readable : Readable bracketed size tokens)
    (yields : Yields bracketed inCall left before) (shaped : WellShaped inCall left) (tight : level.rank ≤ left.rank)
    (parsed : chain level next rounds left tokens = .ok (e, rest)) :
    ∃ used, tokens = used ++ rest ∧ Yields bracketed inCall e (before ++ used) ∧ WellShaped inCall e ∧
      level.rank ≤ e.rank := by
  induction rounds generalizing left before tokens with
  | zero =>
      cases parsed
      exact ⟨[], rfl, by rwa [List.append_nil], shaped, tight⟩
  | succ rounds ih =>
      rcases chain_cases parsed with ⟨rfl, rfl⟩ | ⟨op, token, after, rfl, here, rfl, further⟩
      · exact ⟨[], rfl, by rwa [List.append_nil], shaped, tight⟩
      · obtain ⟨⟨right, later⟩, first, others⟩ := bind_eq_ok.mp further
        obtain ⟨spelling, spelled, rfl⟩ := readable.operator here (by simp)
        obtain ⟨used, rfl, yieldsRight, shapedRight, tighter⟩ := sound readable.tail first
        obtain ⟨more, rfl, yieldsAll, shapedAll, bound⟩ := ih readable.tail.suffix
          (.binary spelled yields yieldsRight) (.binary tight tighter shaped shapedRight) (Nat.le_refl _) others
        exact ⟨{ lexeme := .operator (.binary op) spelling } :: used ++ more, by simp, by simpa using yieldsAll,
          shapedAll, bound⟩

theorem leveled_sound {level : Level} {next : Parse Expr} (sound : Sound bracketed size inCall (level.rank + 1) next) :
    Sound bracketed size inCall level.rank (leveled level next) := by
  intro tokens e rest readable parsed
  obtain ⟨⟨left, after⟩, first, others⟩ := bind_eq_ok.mp parsed
  obtain ⟨before, rfl, yields, shaped, tighter⟩ := sound readable first
  obtain ⟨used, rfl, yieldsAll, shapedAll, bound⟩ :=
    chain_sound sound readable.suffix yields shaped (Nat.le_of_succ_le tighter) others
  exact ⟨before ++ used, by simp, yieldsAll, shapedAll, bound⟩

theorem expression_sound (depth : Nat) (inCall : Bool) :
    Sound bracketed size inCall 0 (expression source bracketed depth inCall) := by
  induction depth generalizing inCall with
  | zero =>
      intro tokens e rest readable parsed
      cases parsed
  | succ depth ih =>
      intro tokens e rest readable parsed
      have product := @leveled_sound bracketed size inCall .product _ (@primary_sound source bracketed size inCall _ ih)
      have sum := @leveled_sound bracketed size inCall .sum _ product
      have comparison := @leveled_sound bracketed size inCall .comparison _ sum
      exact @leveled_sound bracketed size inCall .logic _ comparison tokens e rest readable parsed

theorem ofTokens_sound {tokens : List Token} {e : Expr} (readable : Readable bracketed size tokens)
    (parsed : ofTokens source bracketed tokens = .ok e) :
    WellShaped false e ∧ Yields bracketed false e tokens := by
  unfold ofTokens at parsed
  split at parsed
  · cases parsed
  · obtain ⟨⟨found, rest⟩, read, others⟩ := bind_eq_ok.mp parsed
    obtain ⟨used, rfl, yields, shaped, -⟩ := expression_sound _ false readable read
    cases rest with
    | nil =>
        cases others
        rw [List.append_nil]
        exact ⟨shaped, yields⟩
    | cons token more =>
        simp only at others
        split at others
        · cases others
        · split at others <;> cases others

end Expr

end CommandScript
