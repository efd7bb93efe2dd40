import CommandScript.Proofs.Grammar.Accepted
import CommandScript.Proofs.Output.Statements
import CommandScript.Proofs.Passes.References
import CommandScript.Proofs.Text.Spans

/-! Calls of the writing functions as they are written. A function's name and its arguments in parentheses are read as
the call of the function, if the arguments are words, which may have a sign, and texts in quotes. -/

namespace CommandScript

variable {σ : Type}

/-- A statement that calls one of the writing functions: the call, and the text it is read from. -/
structure WriteCall where
  kind : WriteKind
  args : List Expr
  text : Text

namespace WriteCall

def line (call : WriteCall) : Text := Text.trim (Text.stripComment call.text)

def tree (call : WriteCall) : Expr := .call call.kind.name call.args

/-- The text is a call of the function, whose arguments are literals, variables or other expressions without calls, and
no alias changes it. -/
structure Reads (call : WriteCall) (tables : List AliasTable) : Prop where
  shape : ∃ rest : Text, call.line = call.kind.name ++ .char '(' :: rest
  parsed : Expr.parse call.line = .ok call.tree
  callFree : ∀ arg ∈ call.args, arg.callFree = true
  unchanged : AliasTable.apply tables call.line = call.line

/-- A session reads the statement as the call, and has room for the calls it needs. -/
structure Ready (call : WriteCall) (session : Session σ) : Prop where
  reads : call.Reads session.frame.aliasTables
  room : session.depth + call.tree.callsNeeded ≤ Run.callLimit

end WriteCall

/-- An argument as it is written: a word, which may have a sign, or a text in quotes. -/
inductive Argument where
  | word (sign : Option Sign) (letters : Text)
  | quoted (quote : Quote) (body : Text)
  deriving DecidableEq, Repr

namespace Argument

def isLetter (c : CodePoint) : Bool := Text.isInert c && !Text.isBlank c && (Operator.ofChar? c).isNone

theorem isLetter_iff {c : CodePoint} :
    isLetter c = true ↔ Text.isInert c = true ∧ Text.isBlank c = false ∧ Operator.ofChar? c = none := by
  simp [isLetter, and_assoc]

def sign? : Argument → Option Sign
  | word sign _ => sign
  | quoted _ _ => none

def body : Argument → Text
  | word _ letters => letters
  | quoted quote body => quote.opening :: (body ++ [quote.closing])

def lexeme : Argument → Lexeme
  | word _ letters => .term letters none
  | quoted _ body => .quoted body

def operand : Argument → Expr
  | word _ letters => .term letters
  | quoted _ body => .quoted body true

def text (argument : Argument) : Text := (argument.sign?.elim [] fun sign => sign.op.text) ++ argument.body

def lexemes (argument : Argument) : List Lexeme := Sign.leading argument.sign? ++ [argument.lexeme]

def token (argument : Argument) : Token where
  lexeme := argument.lexeme
  negated := argument.sign? = some .minus

def tree (argument : Argument) : Expr :=
  if argument.sign? = some .minus then .negate argument.operand else argument.operand

/-- A word has letters only, and a text in quotes ends at the closing mark. -/
def Plain : Argument → Prop
  | word _ letters => letters ≠ [] ∧ ∀ c ∈ letters, isLetter c = true
  | quoted quote body => ∀ c ∈ body, c ≠ quote.closing

instance : (argument : Argument) → Decidable argument.Plain
  | word _ letters => inferInstanceAs (Decidable (letters ≠ [] ∧ ∀ c ∈ letters, isLetter c = true))
  | quoted quote body => inferInstanceAs (Decidable (∀ c ∈ body, c ≠ quote.closing))

def following : List Argument → Text
  | [] => [.char ')']
  | argument :: rest => .char ',' :: .char ' ' :: (argument.text ++ following rest)

def enclosed : List Argument → Text
  | [] => [.char ')']
  | argument :: rest => argument.text ++ following rest

def Ends (rest : Text) : Prop := ∃ mark more, rest = mark :: more ∧ (mark = ')' ∨ mark = ',')

theorem following_ends (arguments : List Argument) : Ends (following arguments) := by
  cases arguments with
  | nil => exact ⟨')', [], rfl, .inl rfl⟩
  | cons argument rest => exact ⟨',', _, rfl, .inr rfl⟩

variable {argument : Argument} {arguments : List Argument} {rest : Text}

/-! Scanning. -/

theorem cutTerm_letters {letters : Text} (plain : ∀ c ∈ letters, isLetter c = true) (ends : Ends rest)
    (older last : CodePoint) :
    Lexeme.cutTerm older last (letters ++ rest) = (letters, rest) := by
  refine Lexeme.cutTerm_plain (fun c member => ?_) (fun older last => ?_) older last
  · obtain ⟨inert, -, noOperator⟩ := isLetter_iff.mp (plain c member)
    obtain ⟨noQuote, -, -, -, -, noBracket, -⟩ := Text.isInert_iff.mp inert
    simp [Lexeme.endsTerm, noOperator, Quote.isOpening, noQuote, noBracket]
  · obtain ⟨mark, more, rfl, rfl | rfl⟩ := ends <;> rfl

theorem scan_letters {letters : Text} (filled : letters ≠ []) (plain : ∀ c ∈ letters, isLetter c = true)
    (ends : Ends rest) : Lexeme.scan (letters ++ rest) = (Lexeme.scan rest).map (.term letters none :: ·) := by
  have trimmed : Text.trim letters = letters := Text.trim_visible
    (fun c first => (isLetter_iff.mp (plain c (List.mem_of_mem_head? first))).2.1)
    (fun c last => (isLetter_iff.mp (plain c (List.mem_of_mem_getLast? last))).2.1)
  obtain ⟨c, more, rfl⟩ := List.exists_cons_of_ne_nil filled
  obtain ⟨inert, visible, noOperator⟩ := isLetter_iff.mp (plain c List.mem_cons_self)
  obtain ⟨noQuote, -, -, -, -, noBracket, -⟩ := Text.isInert_iff.mp inert
  have starts : Lexeme.StartsTerm c := ⟨visible, noQuote, noBracket, noOperator⟩
  have cut := cutTerm_letters (fun other member => plain other (List.mem_cons_of_mem c member)) ends ' ' c
  have noIndex : ∀ after, rest ≠ .char '[' :: after := by
    obtain ⟨mark, more, rfl, rfl | rfl⟩ := ends <;> nofun
  rw [List.cons_append, starts.scan cut noIndex, trimmed]

theorem scan_argument (plain : argument.Plain) (ends : Ends rest) :
    Lexeme.scan (argument.text ++ rest) = (Lexeme.scan rest).map (argument.lexemes ++ ·) := by
  cases argument with
  | quoted quote body =>
      have whole : (quoted quote body).text ++ rest = quote.opening :: (body ++ quote.closing :: rest) := by
        simp [text, sign?, Argument.body]
      rw [whole, Lexeme.scan_quoted plain]
      rfl
  | word sign letters =>
      obtain ⟨filled, letters_plain⟩ := plain
      have alone := scan_letters filled letters_plain ends
      cases sign with
      | none => exact alone
      | some sign =>
          have next (c : CodePoint) (visible : ∀ other, Operator.ofPair? c other = none) :
              (letters ++ rest).head?.bind (Operator.ofPair? c) = none := by
            cases (letters ++ rest).head? with
            | none => rfl
            | some other => exact visible other
          cases sign with
          | plus =>
              have scanned := @Lexeme.scan_mark '+' .plus (by decide) (by decide) (by decide) rfl (letters ++ rest)
                (next '+' fun other => rfl)
              rw [alone] at scanned
              refine scanned.trans ?_
              cases Lexeme.scan rest <;> rfl
          | minus =>
              have scanned := @Lexeme.scan_mark '-' .minus (by decide) (by decide) (by decide) rfl (letters ++ rest)
                (next '-' fun other => rfl)
              rw [alone] at scanned
              refine scanned.trans ?_
              cases Lexeme.scan rest <;> rfl

def followingLexemes : List Argument → List Lexeme
  | [] => [.operator .closeParen ")"]
  | argument :: rest => .operator .comma "," :: (argument.lexemes ++ followingLexemes rest)

def enclosedLexemes : List Argument → List Lexeme
  | [] => [.operator .closeParen ")"]
  | argument :: rest => argument.lexemes ++ followingLexemes rest

theorem scan_following (plain : ∀ argument ∈ arguments, argument.Plain) :
    Lexeme.scan (following arguments) = .ok (followingLexemes arguments) := by
  induction arguments with
  | nil => rw [following, Lexeme.scan_close, Lexeme.scan]; rfl
  | cons argument arguments ih =>
      have inner := ih fun other member => plain other (List.mem_cons_of_mem _ member)
      rw [following, Lexeme.scan_mark (by decide) (by decide) (by decide) rfl rfl, Lexeme.scan_blank,
        scan_argument (plain argument List.mem_cons_self) (following_ends arguments), inner]
      rfl

theorem scan_enclosed (plain : ∀ argument ∈ arguments, argument.Plain) :
    Lexeme.scan (enclosed arguments) = .ok (enclosedLexemes arguments) := by
  cases arguments with
  | nil => rw [enclosed, Lexeme.scan_close, Lexeme.scan]; rfl
  | cons argument arguments =>
      rw [enclosed, scan_argument (plain argument List.mem_cons_self) (following_ends arguments),
        scan_following fun other member => plain other (List.mem_cons_of_mem _ member)]
      rfl

/-! Marking. -/

theorem lexeme_noSign (argument : Argument) : argument.lexeme.isSign = false := by
  cases argument <;> rfl

theorem lexeme_ended (argument : Argument) : Token.atOperandStart (some argument.lexeme) = false := by
  cases argument <;> rfl

theorem collapseSigns_argument (argument : Argument) (rest : List Lexeme) :
    Lexeme.collapseSigns (argument.lexemes ++ rest) = argument.lexemes ++ Lexeme.collapseSigns rest := by
  have bare : Lexeme.collapseSigns (argument.lexeme :: rest) = argument.lexeme :: Lexeme.collapseSigns rest :=
    Lexeme.collapseSigns_other argument.lexeme_noSign rest
  rw [lexemes]
  cases argument.sign? with
  | none => exact bare
  | some sign =>
      refine @Lexeme.collapseSigns_sign sign none _ _ bare ?_
      rintro _ ⟨⟩
      exact argument.lexeme_noSign

theorem collapseSigns_following (arguments : List Argument) :
    Lexeme.collapseSigns (followingLexemes arguments) = followingLexemes arguments := by
  induction arguments with
  | nil => rfl
  | cons argument arguments ih => rw [followingLexemes, Lexeme.collapseSigns_other rfl, collapseSigns_argument, ih]

theorem collapseSigns_enclosed (arguments : List Argument) :
    Lexeme.collapseSigns (enclosedLexemes arguments) = enclosedLexemes arguments := by
  cases arguments with
  | nil => rfl
  | cons argument arguments => rw [enclosedLexemes, collapseSigns_argument, collapseSigns_following]

theorem mark_argument {previous : Option Lexeme} (start : Token.atOperandStart previous) (argument : Argument)
    (rest : List Lexeme) :
    Token.mark previous none (argument.lexemes ++ rest) =
      (Token.mark (some argument.lexeme) none rest).map (argument.token :: ·) := by
  cases argument with
  | quoted quote body => rfl
  | word sign letters =>
      obtain ⟨negated, plain⟩ := Formula.marks_front sign
      rw [lexemes, List.append_assoc, sign?, Token.mark_leading start, List.singleton_append, lexeme,
        Token.mark_operand (.inl ⟨letters, rfl⟩) plain, negated]
      rfl

def followingTokens : List Argument → List Token
  | [] => [{ lexeme := .operator .closeParen ")" }]
  | argument :: rest => { lexeme := .operator .comma "," } :: argument.token :: followingTokens rest

def enclosedTokens : List Argument → List Token
  | [] => [{ lexeme := .operator .closeParen ")" }]
  | argument :: rest => argument.token :: followingTokens rest

theorem mark_following {previous : Lexeme} (ended : Token.atOperandStart (some previous) = false)
    (arguments : List Argument) :
    Token.mark (some previous) none (followingLexemes arguments) = .ok (followingTokens arguments) := by
  induction arguments generalizing previous with
  | nil => exact Token.mark_after ended (by decide) ")" []
  | cons argument arguments ih =>
      rw [followingLexemes, Token.mark_after ended (by decide), mark_argument rfl, ih argument.lexeme_ended]
      rfl

theorem mark_enclosed (arguments : List Argument) :
    Token.mark (some (.operator .openParen "(")) none (enclosedLexemes arguments) = .ok (enclosedTokens arguments) := by
  cases arguments with
  | nil => rfl
  | cons argument arguments =>
      rw [enclosedLexemes, mark_argument rfl, mark_following argument.lexeme_ended]
      rfl

theorem checkPairs_following {previous : Token} (value : ∃ argument : Argument, previous.lexeme = argument.lexeme)
    (arguments : List Argument) : Token.checkPairs (previous :: followingTokens arguments) = .ok () := by
  induction arguments generalizing previous with
  | nil =>
      obtain ⟨argument, same⟩ := value
      refine Token.checkPairs_cons ?_ rfl
      rintro _ ⟨⟩
      rw [same]
      cases argument <;> rfl
  | cons next arguments ih =>
      obtain ⟨argument, same⟩ := value
      refine Token.checkPairs_cons ?_ (Token.checkPairs_cons ?_ (ih ⟨next, rfl⟩))
      · rintro _ ⟨⟩
        rw [same]
        cases argument <;> rfl
      · rintro _ ⟨⟩
        cases next <;> rfl

theorem getLast?_following (arguments : List Argument) :
    (followingTokens arguments).getLast? = some { lexeme := .operator .closeParen ")" } := by
  induction arguments with
  | nil => rfl
  | cons argument arguments ih => simp [followingTokens, List.getLast?_cons, ih]

theorem checkNeighbours_call (name : Text) (arguments : List Argument) :
    Token.checkNeighbours ({ lexeme := .term name none } :: { lexeme := .operator .openParen "(" } ::
      enclosedTokens arguments) = .ok () := by
  have ends : (enclosedTokens arguments).getLast? = some { lexeme := .operator .closeParen ")" } := by
    cases arguments with
    | nil => rfl
    | cons argument arguments => simp [enclosedTokens, List.getLast?_cons, getLast?_following]
  have pairs : Token.checkPairs ({ lexeme := .operator .openParen "(" } :: enclosedTokens arguments) = .ok () := by
    cases arguments with
    | nil => rfl
    | cons argument arguments =>
        refine Token.checkPairs_cons ?_ (checkPairs_following ⟨argument, rfl⟩ arguments)
        rintro _ ⟨⟩
        cases argument <;> rfl
  have whole := @Token.checkPairs_cons { lexeme := .term name none } _ (by rintro _ ⟨⟩; rfl) pairs
  rw [Token.checkNeighbours, List.head?_cons, List.getLast?_cons_cons, List.getLast?_cons, ends]
  exact whole

/-! The tree. -/

theorem operand_yields (argument : Argument) :
    Expr.Yields Expr.parse true argument.operand [{ lexeme := argument.lexeme }] := by
  cases argument with
  | word sign letters => exact .term letters
  | quoted quote body => exact .quoted body

theorem tree_yields (argument : Argument) : Expr.Yields Expr.parse true argument.tree [argument.token] := by
  rw [tree, token]
  by_cases minus : argument.sign? = some .minus
  · rw [if_pos minus, decide_eq_true minus]
    exact .negate argument.operand_yields
  · rw [if_neg minus, decide_eq_false minus]
    exact argument.operand_yields

theorem tree_shaped (plain : argument.Plain) : Expr.WellShaped true argument.tree := by
  have shaped : Expr.WellShaped true argument.operand := by
    cases argument with
    | word sign letters => exact .term plain.1
    | quoted quote body => exact .quoted body
  rw [tree]
  split
  · exact .negate (by cases argument <;> rfl) shaped
  · exact shaped

theorem tree_callFree (argument : Argument) : argument.tree.callFree = true := by
  have free : argument.operand.callFree = true := by cases argument <;> rfl
  rw [tree]
  split
  · exact free
  · exact free

theorem trees_depth (arguments : List Argument) :
    Expr.readingDepthAll (arguments.map tree) ≤ 5 ∧ Expr.evalDepthAll (arguments.map tree) ≤ 2 := by
  induction arguments with
  | nil => exact ⟨Nat.zero_le _, Nat.zero_le _⟩
  | cons argument arguments ih =>
      have operand : argument.operand.readingDepth = 5 ∧ argument.operand.evalDepth = 1 := by
        cases argument <;> exact ⟨rfl, rfl⟩
      have here : argument.tree.readingDepth = 5 ∧ argument.tree.evalDepth ≤ 2 := by
        rw [tree]
        split
        · rw [Expr.readingDepth, Expr.evalDepth]
          omega
        · omega
      rw [List.map_cons, Expr.readingDepthAll, Expr.evalDepthAll]
      omega

theorem trees_yield (argument : Argument) (arguments : List Argument) :
    ∃ inner, argument.token :: followingTokens arguments = inner ++ [{ lexeme := .operator .closeParen ")" }] ∧
      Expr.YieldsAll Expr.parse ((argument :: arguments).map tree) inner := by
  induction arguments generalizing argument with
  | nil => exact ⟨[argument.token], rfl, .one argument.tree_yields⟩
  | cons next arguments ih =>
      obtain ⟨inner, same, yields⟩ := ih next
      refine ⟨[argument.token] ++ { lexeme := .operator .comma "," } :: inner, ?_,
        .more (.single rfl) argument.tree_yields yields⟩
      rw [followingTokens, same]
      rfl

theorem call_yields (name : Text) (arguments : List Argument) :
    Expr.Yields Expr.parse false (.call name (arguments.map tree))
      ({ lexeme := .term name none } :: { lexeme := .operator .openParen "(" } :: enclosedTokens arguments) := by
  cases arguments with
  | nil => exact .call name (.single rfl) (.single rfl) .none
  | cons argument arguments =>
      obtain ⟨inner, same, yields⟩ := trees_yield argument arguments
      rw [enclosedTokens, same]
      exact .call name (.single rfl) (.single rfl) yields

/-! Spans. -/

theorem text_inert {sign : Option Sign} {letters : Text} (plain : (word sign letters).Plain) :
    (word sign letters).text.all Text.isInert = true := by
  have inner : letters.all Text.isInert = true :=
    List.all_eq_true.mpr fun c member => (isLetter_iff.mp (plain.2 c member)).1
  rw [text, List.all_append]
  refine Bool.and_eq_true_iff.mpr ⟨?_, inner⟩
  rcases sign with _ | _ | _ <;> rfl

theorem beforeComment_argument (plain : argument.Plain) (rest : Text) :
    Text.beforeComment (Span.scan (argument.text ++ rest)) = argument.text ++ Text.beforeComment (Span.scan rest) := by
  cases argument with
  | word sign letters =>
      have inert := text_inert plain
      rw [Span.scan_append (Text.unquoted_inert inert), Text.beforeComment_append inert]
  | quoted quote body =>
      have whole : (quoted quote body).text ++ rest = quote.opening :: (body ++ quote.closing :: rest) := by
        simp [text, sign?, Argument.body]
      rw [whole, Text.scan_closed plain]
      simp [Text.beforeComment, Span.text, text, sign?, Argument.body]

theorem countMarks_argument (plain : argument.Plain) (parens : Nat) (rest : Text) :
    Text.countMarks parens 0 (Span.scan (argument.text ++ rest)) = Text.countMarks parens 0 (Span.scan rest) := by
  cases argument with
  | word sign letters =>
      have inert := text_inert plain
      rw [Span.scan_append (Text.unquoted_inert inert), Text.countMarks_append inert]
  | quoted quote body =>
      have whole : (quoted quote body).text ++ rest = quote.opening :: (body ++ quote.closing :: rest) := by
        simp [text, sign?, Argument.body]
      rw [whole, Text.scan_closed plain]
      rfl

theorem close_spans : Text.beforeComment (Span.scan [.char ')']) = [.char ')'] ∧
    Text.countMarks 1 0 (Span.scan [.char ')']) = .ok (0, 0) := by
  have unquoted : Text.Unquoted [.char ')'] := by
    intro c member
    obtain rfl := List.mem_singleton.mp member
    rfl
  rw [Span.scan_unquoted unquoted]
  exact ⟨rfl, rfl⟩

theorem following_spans (plain : ∀ argument ∈ arguments, argument.Plain) :
    Text.beforeComment (Span.scan (following arguments)) = following arguments ∧
      Text.countMarks 1 0 (Span.scan (following arguments)) = .ok (0, 0) := by
  induction arguments with
  | nil => exact close_spans
  | cons argument arguments ih =>
      have here := plain argument List.mem_cons_self
      obtain ⟨uncommented, balanced⟩ := ih fun other member => plain other (List.mem_cons_of_mem _ member)
      have inert : (", " : Text).all Text.isInert = true := by decide
      have spans : Span.scan (following (argument :: arguments)) =
          (", " : Text).map .plain ++ Span.scan (argument.text ++ following arguments) :=
        Span.scan_append (Text.unquoted_inert inert) _
      rw [spans, Text.beforeComment_append inert, Text.countMarks_append inert, beforeComment_argument here,
        countMarks_argument here, uncommented]
      exact ⟨rfl, balanced⟩

theorem enclosed_spans (plain : ∀ argument ∈ arguments, argument.Plain) :
    Text.beforeComment (Span.scan (enclosed arguments)) = enclosed arguments ∧
      Text.countMarks 1 0 (Span.scan (enclosed arguments)) = .ok (0, 0) := by
  cases arguments with
  | nil => exact close_spans
  | cons argument arguments =>
      have here := plain argument List.mem_cons_self
      obtain ⟨uncommented, balanced⟩ := following_spans fun other member => plain other (List.mem_cons_of_mem _ member)
      rw [enclosed, beforeComment_argument here, countMarks_argument here, uncommented]
      exact ⟨rfl, balanced⟩

theorem getLast?_enclosed (arguments : List Argument) : (enclosed arguments).getLast? = some (.char ')') := by
  have later (arguments : List Argument) : (following arguments).getLast? = some (.char ')') := by
    induction arguments with
    | nil => rfl
    | cons argument arguments ih => simp [following, List.getLast?_cons, List.getLast?_append, ih]
  cases arguments with
  | nil => rfl
  | cons argument arguments => simp [enclosed, List.getLast?_append, later]

end Argument

namespace WriteKind

theorem name_dotted (kind : WriteKind) : ∀ c ∈ kind.name, Text.isDottedNameChar c = true := by
  cases kind <;> decide

theorem name_filled (kind : WriteKind) : kind.name ≠ [] := by
  cases kind <;> decide

end WriteKind

namespace WriteCall

def ofArguments (kind : WriteKind) (arguments : List Argument) : WriteCall where
  kind
  args := arguments.map Argument.tree
  text := kind.name ++ .char '(' :: Argument.enclosed arguments

variable {kind : WriteKind} {arguments : List Argument} (plain : ∀ argument ∈ arguments, argument.Plain)

include plain

theorem ofArguments_spans : Text.stripComment (ofArguments kind arguments).text = (ofArguments kind arguments).text ∧
    Text.checkBalance (ofArguments kind arguments).text = .ok () := by
  obtain ⟨uncommented, balanced⟩ := Argument.enclosed_spans plain
  have inert : kind.name.all Text.isInert = true := by cases kind <;> decide
  have spans : Span.scan (ofArguments kind arguments).text =
      kind.name.map .plain ++ .plain '(' :: Span.scan (Argument.enclosed arguments) := by
    rw [ofArguments, Span.scan_append (Text.unquoted_inert inert), Text.scan_plain (by decide)]
  constructor
  · rw [Text.stripComment, spans, Text.beforeComment_append inert, Text.beforeComment, if_neg (by decide), uncommented]
    rfl
  · rw [Text.checkBalance, spans, Text.countMarks_append inert, Text.countMarks, if_pos rfl, balanced]
    rfl

theorem ofArguments_line : (ofArguments kind arguments).line = (ofArguments kind arguments).text := by
  rw [line, (ofArguments_spans plain).1]
  apply Text.trim_visible
  · intro c first
    have inside : c ∈ kind.name := by
      obtain ⟨letter, rest, same⟩ := List.exists_cons_of_ne_nil kind.name_filled
      rw [ofArguments, same] at first
      obtain rfl : letter = c := by simpa using first
      simp [same]
    exact (Text.dotted_neutral (kind.name_dotted c inside)).1
  · intro c last
    have final : (ofArguments kind arguments).text.getLast? = some (.char ')') := by
      simp [ofArguments, List.getLast?_append, List.getLast?_cons, Argument.getLast?_enclosed]
    obtain rfl : ')' = c := Option.some.inj (final.symm.trans last)
    decide

theorem ofArguments_parsed : Expr.parse (ofArguments kind arguments).text = .ok (ofArguments kind arguments).tree := by
  have alone : (Argument.enclosed arguments).head?.bind (Operator.ofPair? '(') = none := by
    cases (Argument.enclosed arguments).head? <;> rfl
  have scanned : Lexeme.scan (ofArguments kind arguments).text =
      .ok (.term kind.name none :: .operator .openParen "(" :: Argument.enclosedLexemes arguments) := by
    rw [ofArguments, Lexeme.scan_dotted kind.name_filled kind.name_dotted (.inl rfl), if_neg (by decide),
      Lexeme.scan_mark (by decide) (by decide) (by decide) rfl alone, Argument.scan_enclosed plain]
    rfl
  have marked : Token.mark none none (Lexeme.collapseSigns (.term kind.name none :: .operator .openParen "(" ::
      Argument.enclosedLexemes arguments)) =
      .ok ({ lexeme := .term kind.name none } :: { lexeme := .operator .openParen "(" } ::
        Argument.enclosedTokens arguments) := by
    rw [Lexeme.collapseSigns_other rfl, Lexeme.collapseSigns_other rfl, Argument.collapseSigns_enclosed,
      Token.mark_operand (.inl ⟨_, rfl⟩) rfl, Token.mark_after rfl (by decide), Argument.mark_enclosed]
    rfl
  have tokenized : Token.tokenize (ofArguments kind arguments).text =
      .ok ({ lexeme := .term kind.name none } :: { lexeme := .operator .openParen "(" } ::
        Argument.enclosedTokens arguments) := by
    simp only [Token.tokenize, (ofArguments_spans plain).2, scanned, marked, Argument.checkNeighbours_call,
      bind, Except.bind]
    rfl
  refine Expr.parse_eq_ok.mpr ⟨_, tokenized, ?_, Argument.call_yields kind.name arguments⟩
  refine .call (List.all_eq_true.mpr kind.name_dotted) fun arg member => ?_
  obtain ⟨argument, inside, rfl⟩ := List.mem_map.mp member
  exact Argument.tree_shaped (plain argument inside)

theorem ofArguments_ready {session : Session σ}
    (unchanged : AliasTable.apply session.frame.aliasTables (ofArguments kind arguments).text =
      (ofArguments kind arguments).text)
    (room : session.depth + 16 ≤ Run.callLimit) : (ofArguments kind arguments).Ready session := by
  have line : (ofArguments kind arguments).line = _ := ofArguments_line plain
  refine ⟨⟨⟨Argument.enclosed arguments, line⟩, ?_, ?_, ?_⟩, ?_⟩
  · rw [line]
    exact ofArguments_parsed plain
  · intro arg member
    obtain ⟨argument, -, rfl⟩ := List.mem_map.mp member
    exact argument.tree_callFree
  · rw [line]
    exact unchanged
  · have depth := Argument.trees_depth arguments
    simp only [tree, ofArguments, Expr.callsNeeded, Expr.readingDepth, Expr.evalDepth]
    omega

end WriteCall

end CommandScript
