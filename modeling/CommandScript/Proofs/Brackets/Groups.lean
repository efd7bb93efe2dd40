import CommandScript.Proofs.Brackets.Marking
import CommandScript.Proofs.Brackets.Parentheses
import CommandScript.Proofs.Brackets.Requoting
import CommandScript.Proofs.Comments.Stripping
import CommandScript.Proofs.Grammar.Neighbours
import CommandScript.Proofs.Integers.Running

/-! Bare brackets and groups. A bracket that follows nothing or an operator is a group: with parentheses in its
place the text is read into the same tree, but for quoted texts in the bracket. What is in a bracket is a text
of its own, so a quoted text there is not in a call even if the bracket is; in parentheses it is. -/

namespace CommandScript

namespace Text

def inBrackets (before inner after : Text) : Text := before ++ .char '[' :: (inner ++ .char ']' :: after)

def inParens (before inner after : Text) : Text := before ++ .char '(' :: (inner ++ .char ')' :: after)

theorem countMarks_after {spans : List Span} (closed : ∀ quote rest, Span.unclosed quote rest ∉ spans)
    (parens brackets : Nat) (rest : List Span) :
    countMarks parens brackets (spans ++ rest) =
      countMarks parens brackets spans >>= fun counts => countMarks counts.1 counts.2 rest := by
  induction spans generalizing parens brackets with
  | nil => rfl
  | cons span spans ih =>
      have later := ih fun quote rest member => closed quote rest (List.mem_cons_of_mem _ member)
      cases span with
      | unclosed quote body => exact absurd List.mem_cons_self (closed quote body)
      | quoted quote body => exact later parens brackets
      | plain c =>
          simp only [List.cons_append, countMarks]
          split
          · exact later _ _
          split
          · split
            · rfl
            · exact later _ _
          split
          · exact later _ _
          split
          · split
            · rfl
            · exact later _ _
          · exact later _ _

theorem checkBalance_around {before inner : Text} (closed : Closed before) (even : Even inner) (after : Text) :
    checkBalance (inBrackets before inner after) = checkBalance (inParens before inner after) := by
  have counted : countMarks 0 0 (Span.scan (inBrackets before inner after)) =
      countMarks 0 0 (Span.scan (inParens before inner after)) := by
    rw [inBrackets, inParens, closed.scan_append, closed.scan_append, countMarks_after closed, countMarks_after closed]
    refine congrArg (countMarks 0 0 (Span.scan before) >>= ·) (funext fun counts => ?_)
    rw [scan_plain rfl, scan_plain rfl, even.1.scan_append, even.1.scan_append, scan_plain rfl, scan_plain rfl]
    simp only [countMarks, CodePoint.char.injEq, Char.reduceEq, if_true, if_false, even.countMarks,
      Nat.add_one_ne_zero, Nat.add_sub_cancel]
  rw [checkBalance, checkBalance, counted]

end Text

/-- A bracket that is a group: its inside is a text of its own, and no operand stands before it. -/
structure BareBracket (before inner : Text) (items : List Lexeme) : Prop where
  scanned : Lexeme.scan before = .ok items
  ends : Lexeme.EndInOperator items
  closed : inner.Closed
  plain : inner.UnquotedBrackets
  balanced : Text.checkBalance inner = .ok ()

namespace BareBracket

variable {before inner after : Text} {items : List Lexeme} (bare : BareBracket before inner items)

include bare

theorem enclosed : Text.Enclosed 0 inner := .of_checkBalance bare.closed bare.plain bare.balanced

theorem even : Text.Even inner := ⟨bare.closed, Text.counted_balanced bare.balanced⟩

theorem shut : ∀ last ∈ items.getLast?, last.inside? = none := by
  intro last found
  cases last with
  | operator op spelling => rfl
  | _ => cases bare.ends _ found

theorem scan_brackets (after : Text) :
    Lexeme.scan (Text.inBrackets before inner after) =
      if Text.trim inner = [] then .error (.emptyBrackets (.char '[' :: (inner ++ .char ']' :: after)))
      else (Lexeme.scan after).map (items ++ .bracket inner :: ·) := by
  have cut : Lexeme.cutBracket 0 (inner ++ .char ']' :: after) = (inner, after) := by
    obtain ⟨parens, parens', counted⟩ := bare.enclosed.counted
    have found := Lexeme.cutBracket_counted bare.plain bare.closed counted (.char ']' :: after)
    rw [Span.flatten_scan] at found
    simpa [Lexeme.cutBracket] using found
  rw [Text.inBrackets, Lexeme.scan_append (.inr (.inr rfl)) bare.scanned (.inl bare.shut) (fun _ => bare.ends),
    Lexeme.scan_bracket, Lexeme.scanInside, cut]
  split
  · rfl
  · cases Lexeme.scan after <;> rfl

theorem scan_brackets_ok {lexemes : List Lexeme}
    (scanned : Lexeme.scan (Text.inBrackets before inner after) = .ok lexemes) :
    ∃ rest, Lexeme.scan after = .ok rest ∧ lexemes = items ++ .bracket inner :: rest := by
  rw [bare.scan_brackets] at scanned
  split at scanned
  · cases scanned
  cases later : Lexeme.scan after with
  | error error =>
      rw [later] at scanned
      cases scanned
  | ok rest =>
      rw [later] at scanned
      exact ⟨rest, rfl, (Except.ok.inj scanned).symm⟩

theorem scan_opening (rest : Text) :
    Lexeme.scan (before ++ .char '(' :: rest) = (Lexeme.scan rest).map (items ++ .operator .openParen "(" :: ·) := by
  have alone : rest.head?.bind (Operator.ofPair? '(') = none := by cases rest <;> rfl
  rw [Lexeme.scan_append (.inl rfl) bare.scanned (.inl bare.shut) nofun,
    Lexeme.scan_mark (by decide) (by decide) (by decide) rfl alone]
  cases Lexeme.scan rest <;> rfl

theorem scan_parens {inside : List Lexeme} (known : Lexeme.scan inner = .ok inside) (after : Text) :
    Lexeme.scan (Text.inParens before inner after) =
      (Lexeme.scan after).map fun rest =>
        items ++ .operator .openParen "(" :: (inside ++ .operator .closeParen ")" :: rest) := by
  rw [Text.inParens, bare.scan_opening, Lexeme.scan_append (.inr (.inl rfl)) known (.inr bare.enclosed) nofun,
    Lexeme.scan_close]
  cases Lexeme.scan after <;> rfl

theorem scan_parens_ok {lexemes : List Lexeme}
    (scanned : Lexeme.scan (Text.inParens before inner after) = .ok lexemes) :
    ∃ inside rest, Lexeme.scan inner = .ok inside ∧ Lexeme.scan after = .ok rest ∧
      lexemes = items ++ .operator .openParen "(" :: (inside ++ .operator .closeParen ")" :: rest) := by
  cases known : Lexeme.scan inner with
  | error error =>
      obtain ⟨other, refused⟩ := Lexeme.scan_append_refused (.inr (.inl rfl)) known bare.enclosed after
      rw [Text.inParens, bare.scan_opening, refused] at scanned
      cases scanned
  | ok inside =>
      rw [bare.scan_parens known] at scanned
      cases later : Lexeme.scan after with
      | error error =>
          rw [later] at scanned
          cases scanned
      | ok rest =>
          rw [later] at scanned
          exact ⟨inside, rest, rfl, rfl, (Except.ok.inj scanned).symm⟩

end BareBracket

namespace Token

theorem atOperandStart_value {front tokens : List Token} {token : Token}
    (ends : Lexeme.EndInOperator (front.map (·.lexeme))) (chain : (front ++ token :: tokens).IsChain Fits)
    (starts : startsOperand token.lexeme = true) :
    ∀ last ∈ front.getLast?, atOperandStart (some last.lexeme) = true := by
  intro last found
  have operator := ends last.lexeme (by
    rw [List.getLast?_map, Option.mem_def.mp found]
    rfl)
  have fits : Fits last token := (List.isChain_append.mp chain).2.2 last found token rfl
  cases known : last.lexeme with
  | operator op spelling =>
      -- after a closing parenthesis an operator is missing
      have noClose : op ≠ .closeParen := by
        rintro rfl
        rw [startsOperand] at starts
        rw [Fits, known, clash, starts] at fits
        simp [Lexeme.isOperator, Lexeme.operator?] at fits
      simpa [atOperandStart, Lexeme.operator?] using noClose
  | _ =>
      rw [known] at operator
      cases operator

end Token

namespace Lexeme

structure Leads (items : List Lexeme) (front : List Token) (negated inverted : Bool) : Prop where
  ends : EndInOperator (front.map (·.lexeme))
  bracket (inner : Text) (rest : List Lexeme) (tokens : List Token) :
    Token.mark none none (collapseSigns (items ++ .bracket inner :: rest)) = .ok tokens ↔
      ∃ others, Token.mark (some (.operator .closeParen ")")) none (collapseSigns rest) = .ok others ∧
        tokens = front ++ ⟨.bracket inner, negated, inverted⟩ :: others
  parens (inside rest : List Lexeme) (tokens : List Token) :
    Token.mark none none
        (collapseSigns (items ++ .operator .openParen "(" :: (inside ++ .operator .closeParen ")" :: rest))) =
          .ok tokens ↔
      ∃ group others, Token.mark none none (collapseSigns inside) = .ok group ∧
        Token.mark (some (.operator .closeParen ")")) none (collapseSigns rest) = .ok others ∧
        tokens = front ++ ⟨.operator .openParen "(", negated, inverted⟩ ::
          (group ++ { lexeme := .operator .closeParen ")" } :: others)

/-- Lexemes that end in an operator are marked alike before a bracket and before a group. -/
theorem exists_leads {items : List Lexeme} (ends : EndInOperator items) :
    (∀ first rest, Token.startsOperand first = true → first.isQuoted = false →
        ∃ error, Token.mark none none (collapseSigns (items ++ first :: rest)) = .error error) ∨
      ∃ front negated inverted, Leads items front negated inverted := by
  rcases Token.mark_at ends.collapseSigns with ⟨error, refused⟩ | ⟨front, negated, inverted, endsFront, marks⟩
  · refine .inl fun first rest starts noQuote => ⟨error, ?_⟩
    rw [collapseSigns_split (Token.startsOperand_noSign starts), refused]
  · refine .inr ⟨front, negated, inverted, endsFront, fun inner rest tokens => ?_, fun inside rest tokens => ?_⟩
    · rw [collapseSigns_split rfl, marks _ _ rfl rfl]
      constructor
      · intro marked
        cases later : Token.mark (some (.bracket inner)) none (collapseSigns rest) with
        | error error =>
            rw [later] at marked
            cases marked
        | ok others =>
            rw [later] at marked
            exact ⟨others, (Token.mark_congr (by rfl) _ _).mp later, (Except.ok.inj marked).symm⟩
      · rintro ⟨others, later, rfl⟩
        have here : Token.mark (some (.bracket inner)) none (collapseSigns rest) = .ok others :=
          (Token.mark_congr (by rfl) _ _).mpr later
        rw [here]
        rfl
    · rw [collapseSigns_split rfl, collapseSigns_split rfl, marks _ _ rfl rfl]
      constructor
      · intro marked
        cases later : Token.mark (some (.operator .openParen "(")) none
            (collapseSigns inside ++ .operator .closeParen ")" :: collapseSigns rest) with
        | error error =>
            rw [later] at marked
            cases marked
        | ok others =>
            rw [later] at marked
            obtain ⟨group, last, within, after, rfl⟩ := (Token.mark_group rfl).mp later
            exact ⟨group, last, within, after, (Except.ok.inj marked).symm⟩
      · rintro ⟨group, others, within, after, rfl⟩
        rw [(Token.mark_group rfl).mpr ⟨group, others, within, after, rfl⟩]
        rfl

end Lexeme

namespace Expr

variable {bracketed : Text → Except Malformed Expr} {inCall : Bool} {operand : Expr} {own : List Token}

theorem Written.ofBracket {inner : Text} (written : Written bracketed inCall operand (.bracket inner) own) :
    ∃ tree, bracketed inner = .ok tree ∧ operand = .group true tree ∧ own = [] := by
  obtain ⟨plain, -, yields⟩ := written
  generalize whole : ({ lexeme := .bracket inner } : Token) :: own = tokens at yields
  cases yields with
  | bracket known =>
      cases whole
      exact ⟨_, known, rfl, rfl⟩
  | negate _ => cases plain
  | invert _ => cases plain
  | binary _ _ _ => cases plain
  | _ => cases whole

theorem Written.ofOpening {spelling : Text}
    (written : Written bracketed inCall operand (.operator .openParen spelling) own) :
    ∃ tree tokens closing, operand = .group false tree ∧ own = tokens ++ [{ lexeme := .operator .closeParen closing }] ∧
      Yields bracketed inCall tree tokens := by
  obtain ⟨plain, -, yields⟩ := written
  generalize whole : ({ lexeme := .operator .openParen spelling } : Token) :: own = tokens at yields
  cases yields with
  | group opened closed inner =>
      cases whole
      exact ⟨_, _, _, rfl, rfl, inner⟩
  | negate _ => cases plain
  | invert _ => cases plain
  | binary _ _ _ => cases plain
  | _ => cases whole

/-- The trees of two texts, one with a text in a bare bracket and one with the text in parentheses: they are the
same but for the quoted texts in the bracket, and only if the bracket is in the arguments of a call. -/
inductive Regrouped (inner : Text) : Expr → Expr → Prop
  | fill (context : Context) (token : Token) {tree other : Expr} : parse inner = .ok tree → Requoted tree other →
      (other = tree ∨ context.inCall = true ∧ tree.HasBareQuote) →
      Regrouped inner (context.fill (applyMarks token (.group true tree)))
        (context.fill (applyMarks token (.group false other)))

/-- A group in the arguments of a call holds the text, and a quoted text is an operand in it. -/
def QuotesInCall (inner : Text) (e : Expr) : Prop :=
  ∃ (context : Context) (token : Token) (tree : Expr), parse inner = .ok tree ∧ tree.HasBareQuote ∧
    context.inCall = true ∧ e = context.fill (applyMarks token (.group true tree))

theorem QuotesInCall.bare {inner : Text} {e : Expr} (quotes : QuotesInCall inner e) : e.HasBareQuote := by
  obtain ⟨context, token, tree, -, bareQuote, -, rfl⟩ := quotes
  exact (HasBareQuote.marks (.group bareQuote) token).fill context

section Marks

variable {σ : Type} {env : Env σ} {logical : Bool} {e other : Expr} (token : Token)

/-- A bracket in a tree comes to what a group comes to in its place. -/
theorem Context.eval_regroup (same : eval env logical e = eval env logical other) (context : Context) :
    eval env logical (context.fill (applyMarks token (.group true e))) =
      eval env logical (context.fill (applyMarks token (.group false other))) := by
  obtain ⟨lexeme, negated, inverted⟩ := token
  have grouped : eval env logical (.group true e) = eval env logical (.group false other) := by rw [eval, eval, same]
  refine context.eval_fill ?_ ?_
  · cases negated <;> cases inverted <;> simp [applyMarks, eval, same]
  · cases negated <;> cases inverted <;> rfl

theorem Context.callsNeeded_fill (reading : e.readingDepth ≤ other.readingDepth)
    (evaluating : e.evalDepth ≤ other.evalDepth) (context : Context) :
    (context.fill (applyMarks token e)).callsNeeded ≤ (context.fill (applyMarks token other)).callsNeeded := by
  obtain ⟨lexeme, negated, inverted⟩ := token
  have marked : (applyMarks ⟨lexeme, negated, inverted⟩ e).readingDepth ≤
        (applyMarks ⟨lexeme, negated, inverted⟩ other).readingDepth ∧
      (applyMarks ⟨lexeme, negated, inverted⟩ e).evalDepth ≤
        (applyMarks ⟨lexeme, negated, inverted⟩ other).evalDepth := by
    cases negated <;> cases inverted <;> simpa [applyMarks, readingDepth, evalDepth] using ⟨reading, evaluating⟩
  have filled := context.depths_fill marked.1 marked.2
  unfold callsNeeded
  omega

end Marks

namespace Regrouped

variable {inner : Text} {first second : Expr} (regrouped : Regrouped inner first second)

include regrouped

theorem condition_eq {σ : Type} (env : Env σ) : eval env true first = eval env true second := by
  obtain ⟨context, token, read, same, -⟩ := regrouped
  exact context.eval_regroup token (same.eval env)

theorem value_eq {σ : Type} (env : Env σ) (noQuotes : ¬first.QuotesInCall inner) :
    eval env false first = eval env false second := by
  obtain ⟨context, token, read, same, kept⟩ := regrouped
  rcases kept with rfl | ⟨inCall, bareQuote⟩
  · exact context.eval_regroup token rfl
  · exact absurd ⟨context, token, _, read, bareQuote, inCall, rfl⟩ noQuotes

theorem callsNeeded_le : second.callsNeeded ≤ first.callsNeeded := by
  obtain ⟨context, token, read, same, -⟩ := regrouped
  obtain ⟨reading, evaluating⟩ := same.depths
  refine context.callsNeeded_fill token ?_ ?_
  · simp only [readingDepth, reading]
    omega
  · simp only [evalDepth, evaluating, Nat.le_refl]

end Regrouped

end Expr

namespace BareBracket

variable {before inner after : Text} {items : List Lexeme} (bare : BareBracket before inner items)

include bare

theorem parse_parens {e : Expr} (parsed : Expr.parse (Text.inBrackets before inner after) = .ok e) :
    ∃ other, Expr.parse (Text.inParens before inner after) = .ok other ∧ Expr.Regrouped inner e other := by
  obtain ⟨lexemes, tokens, balanced, scanned, marked, shaped, yields⟩ := Expr.parse_steps.mp parsed
  obtain ⟨rest, scannedRest, rfl⟩ := bare.scan_brackets_ok scanned
  rcases Lexeme.exists_leads bare.ends with refused | ⟨front, negated, inverted, leads⟩
  · obtain ⟨error, failed⟩ := refused (.bracket inner) rest rfl rfl
    cases failed.symm.trans marked
  have closed : Text.Closed before := Lexeme.scan_closed bare.scanned fun lexeme member text inside => by
    obtain ⟨tree, read⟩ := yields.inside marked (List.mem_append_left _ member) inside
    exact Expr.parse_closed read
  obtain ⟨others, markedRest, rfl⟩ := (leads.bracket inner rest tokens).mp marked
  have place := Token.atOperandStart_value leads.ends yields.operands.chain rfl
  obtain ⟨own, later, context, operand, same, found⟩ := yields.placed_at shaped rfl rfl place
  obtain ⟨tree, read, rfl, rfl⟩ := found.written.ofBracket
  obtain rfl : others = later := same
  -- in parentheses the same tokens are read by the parser of the text around them, which may be in a call
  obtain ⟨inside, group, -, scannedInner, markedInner, shapedInner, yieldsInner⟩ := Expr.parse_steps.mp read
  obtain ⟨other, again⟩ := yieldsInner.requoted (fun _ _ => Expr.parse_shaped) shapedInner (false || context.inCall)
  have written : Expr.Written Expr.parse (false || context.inCall) (.group false other) (.operator .openParen "(")
      (group ++ [{ lexeme := .operator .closeParen ")" }]) :=
    ⟨rfl, .group again.shaped, .group (.single rfl) (.single rfl) again.yields⟩
  obtain ⟨shapedParens, yieldsParens, -, -⟩ :=
    found.replaced ⟨.operator .openParen "(", negated, inverted⟩ _ _ written
  rw [List.append_assoc, List.singleton_append] at yieldsParens
  refine ⟨_, Expr.parse_steps.mpr ⟨items ++ .operator .openParen "(" ::
    (inside ++ .operator .closeParen ")" :: rest), _,
    ?_, ?_, ?_, shapedParens, yieldsParens⟩, ?_⟩
  · rw [← Text.checkBalance_around closed bare.even after]
    exact balanced
  · rw [bare.scan_parens scannedInner, scannedRest]
    rfl
  · exact (leads.parens inside rest _).mpr ⟨group, others, markedInner, markedRest, rfl⟩
  · rw [found.fills]
    refine .fill context _ read again.requoted (again.same_or_bare.imp_right fun ⟨apart, bareQuote, _⟩ => ?_)
    exact ⟨by simpa using apart, bareQuote rfl⟩

theorem parse_brackets {e : Expr} (parsed : Expr.parse (Text.inParens before inner after) = .ok e) :
    ∃ other, Expr.parse (Text.inBrackets before inner after) = .ok other ∧ Expr.Regrouped inner other e := by
  obtain ⟨lexemes, tokens, balanced, scanned, marked, shaped, yields⟩ := Expr.parse_steps.mp parsed
  obtain ⟨inside, rest, scannedInner, scannedRest, rfl⟩ := bare.scan_parens_ok scanned
  have read {lexeme : Lexeme} (member : lexeme ∈ items ∨ lexeme ∈ inside) {text : Text}
      (within : lexeme.inside? = some text) : ∃ tree, Expr.parse text = .ok tree :=
    yields.inside marked (by rcases member with member | member <;> simp [member]) within
  rcases Lexeme.exists_leads bare.ends with refused | ⟨front, negated, inverted, leads⟩
  · obtain ⟨error, failed⟩ := refused (.operator .openParen "(") _ rfl rfl
    cases failed.symm.trans marked
  have closed : Text.Closed before := Lexeme.scan_closed bare.scanned fun lexeme member text within => by
    obtain ⟨tree, known⟩ := read (.inl member) within
    exact Expr.parse_closed known
  obtain ⟨group, others, markedInner, markedRest, rfl⟩ := (leads.parens inside rest tokens).mp marked
  have place := Token.atOperandStart_value leads.ends yields.operands.chain rfl
  obtain ⟨own, later, context, operand, same, found⟩ := yields.placed_at shaped rfl rfl place
  obtain ⟨tree, group', closing, rfl, rfl, yieldsTree⟩ := found.written.ofOpening
  -- the group that was read ends where the text in the parentheses ends
  have paired := Token.paired bare.even scannedInner
    (fun lexeme member text within => by
      obtain ⟨known, parsed⟩ := read (.inr member) within
      exact ⟨Expr.parse_closed parsed, Expr.parse_counted parsed⟩) markedInner
  obtain ⟨rfl, rfl⟩ : group = group' ∧ others = later := by
    have lexemes := congrArg (List.map (·.lexeme)) same
    simp only [List.map_append, List.map_cons, List.append_assoc, List.singleton_append] at lexemes
    have length := congrArg List.length (paired.unique yieldsTree.paired lexemes).1
    rw [List.append_assoc] at same
    obtain ⟨groups, rests⟩ := List.append_inj same (by simpa using length)
    exact ⟨groups, (List.cons.inj rests).2⟩
  -- in a bracket they are read by a parser of their own, which is in no call
  have shapedTree := found.written.shaped.of_group
  obtain ⟨other, again⟩ := yieldsTree.requoted (fun _ _ => Expr.parse_shaped) shapedTree false
  have known : Expr.parse inner = .ok other :=
    Expr.parse_steps.mpr ⟨inside, group, bare.balanced, scannedInner, markedInner, again.shaped, again.yields⟩
  have written : Expr.Written Expr.parse (false || context.inCall) (.group true other) (.bracket inner) [] :=
    ⟨rfl, .bracket again.shaped, .bracket known⟩
  obtain ⟨shapedBracket, yieldsBracket, -, -⟩ := found.replaced ⟨.bracket inner, negated, inverted⟩ _ _ written
  refine ⟨_, Expr.parse_steps.mpr ⟨items ++ .bracket inner :: rest, _, ?_, ?_, ?_, shapedBracket, yieldsBracket⟩, ?_⟩
  · rw [Text.checkBalance_around closed bare.even after]
    exact balanced
  · rw [bare.scan_brackets, if_neg (Expr.parse_filled known), scannedRest]
    rfl
  · exact (leads.bracket inner rest _).mpr ⟨others, markedRest, rfl⟩
  · rw [found.fills]
    refine .fill context _ known again.requoted.symm (again.same_or_bare.imp Eq.symm fun ⟨apart, _, bareQuote⟩ => ?_)
    exact ⟨by simpa using apart, bareQuote rfl⟩

end BareBracket

end CommandScript
