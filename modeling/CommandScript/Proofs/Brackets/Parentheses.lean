import CommandScript.Proofs.Brackets.Scanning
import CommandScript.Proofs.Grammar.Quotes
import CommandScript.Proofs.Prefixes.Marks

/-! Parentheses among tokens. The tokens of a tree close all the parentheses that they open, and so do the lexemes of a
text whose marks are balanced, if the texts in its brackets are balanced too: the count of marks goes through brackets,
while the parser takes what is in them by itself. -/

namespace CommandScript

namespace Lexeme

def parens (depth : Nat) : List Lexeme → Option Nat
  | [] => some depth
  | lexeme :: rest =>
    if lexeme.isOperator .openParen then parens (depth + 1) rest
    else if lexeme.isOperator .closeParen then
      if depth = 0 then none else parens (depth - 1) rest
    else parens depth rest

theorem parens_append (depth : Nat) (first second : List Lexeme) :
    parens depth (first ++ second) = (parens depth first).bind (parens · second) := by
  induction first generalizing depth with
  | nil => rfl
  | cons lexeme rest ih =>
      rw [List.cons_append, parens, parens]
      by_cases opens : lexeme.isOperator .openParen = true
      · rw [if_pos opens, if_pos opens, ih]
      rw [if_neg opens, if_neg opens]
      by_cases closes : lexeme.isOperator .closeParen = true
      · rw [if_pos closes, if_pos closes]
        by_cases zero : depth = 0
        · rw [if_pos zero, if_pos zero]
          rfl
        · rw [if_neg zero, if_neg zero, ih]
      · rw [if_neg closes, if_neg closes, ih]

def NoParen (lexeme : Lexeme) : Prop := lexeme.isOperator .openParen = false ∧ lexeme.isOperator .closeParen = false

theorem parens_skip {lexeme : Lexeme} (noParen : lexeme.NoParen) (depth : Nat) (rest : List Lexeme) :
    parens depth (lexeme :: rest) = parens depth rest := by
  rw [parens, noParen.1, noParen.2]
  rfl

theorem parens_open (depth : Nat) (spelling : Text) (rest : List Lexeme) :
    parens depth (.operator .openParen spelling :: rest) = parens (depth + 1) rest := rfl

theorem parens_close (depth : Nat) (spelling : Text) (rest : List Lexeme) :
    parens (depth + 1) (.operator .closeParen spelling :: rest) = parens depth rest := rfl

theorem noParen_value {lexeme : Lexeme} (value : lexeme.operator? = none) : lexeme.NoParen := by
  simp [NoParen, isOperator, value]

theorem noParen_operator {op : Operator} (spelling : Text) (other : op ≠ .openParen ∧ op ≠ .closeParen) :
    (Lexeme.operator op spelling).NoParen := by
  simpa [NoParen, isOperator, operator?] using other

theorem noParen_between (op : Operator) (spelling : Text) (between : op.isInfix = true) :
    (Lexeme.operator op spelling).NoParen := by
  refine noParen_operator spelling ⟨?_, ?_⟩
  · rintro rfl
    cases between
  · rintro rfl
    cases between

/-- All parentheses that are opened are closed, and no others. -/
def Paired (lexemes : List Lexeme) : Prop := ∀ depth, parens depth lexemes = some depth

theorem Paired.append {first second : List Lexeme} (firstPaired : Paired first) (secondPaired : Paired second) :
    Paired (first ++ second) := by
  intro depth
  rw [parens_append, firstPaired]
  exact secondPaired depth

theorem Paired.cons {lexeme : Lexeme} {rest : List Lexeme} (noParen : lexeme.NoParen) (paired : Paired rest) :
    Paired (lexeme :: rest) := by
  intro depth
  rw [parens_skip noParen]
  exact paired depth

theorem Paired.group {inner : List Lexeme} (paired : Paired inner) (opening closing : Text) :
    Paired (.operator .openParen opening :: (inner ++ [.operator .closeParen closing])) := by
  intro depth
  rw [parens_open, parens_append, paired]
  rfl

theorem Paired.unique {first second later others : List Lexeme} {spelling spelling' : Text} (paired : Paired first)
    (paired' : Paired second)
    (same : first ++ .operator .closeParen spelling :: later = second ++ .operator .closeParen spelling' :: others) :
    first = second ∧ later = others := by
  rcases List.append_eq_append_iff.mp same with ⟨more, rfl, rest⟩ | ⟨more, rfl, rest⟩
  all_goals
    cases more with
    | nil =>
        obtain ⟨-, rfl⟩ := List.cons.inj rest
        exact ⟨by simp, rfl⟩
    | cons next more =>
        -- what stands before the next parenthesis would close one too many
        obtain ⟨rfl, -⟩ := List.cons.inj rest
        first
          | have count := paired' 0; rw [parens_append, paired] at count; cases count
          | have count := paired 0; rw [parens_append, paired'] at count; cases count

theorem parens_collapseSigns (depth : Nat) (lexemes : List Lexeme) :
    parens depth (collapseSigns lexemes) = parens depth lexemes := by
  have signed {op : Operator} (spelling : Text) (sign : op.isSign = true) : (Lexeme.operator op spelling).NoParen := by
    refine noParen_operator spelling ⟨?_, ?_⟩
    · rintro rfl
      cases sign
    · rintro rfl
      cases sign
  induction lexemes generalizing depth with
  | nil => rfl
  | cons first rest ih =>
      have onward (inner : List Lexeme) (same : ∀ depth, parens depth inner = parens depth rest) :
          parens depth (first :: inner) = parens depth (first :: rest) := by
        rw [parens, parens, same, same, same]
      unfold collapseSigns
      split
      · rename_i op spelling op' spelling' more collapsed
        have inner : ∀ depth, parens depth (operator op' spelling' :: more) = parens depth rest := by
          intro depth
          rw [← collapsed, ih]
        split
        · rename_i signs
          obtain ⟨sign, sign'⟩ := Bool.and_eq_true_iff.mp signs
          have joined : (joinSigns op op').NoParen := by
            unfold joinSigns
            split
            · exact signed _ rfl
            · exact signed _ rfl
          rw [parens_skip joined, parens_skip (signed spelling sign), ← inner, parens_skip (signed spelling' sign')]
        · exact onward _ inner
      · exact onward _ ih

end Lexeme

namespace Text

theorem countMarks_plain {c : CodePoint} (noParen : c ≠ '(' ∧ c ≠ ')') {spans : List Span} {parens brackets : Nat}
    {counts : Nat × Nat} (counted : countMarks parens brackets (.plain c :: spans) = .ok counts) :
    ∃ brackets', countMarks parens brackets' spans = .ok counts := by
  rw [countMarks, if_neg noParen.1, if_neg noParen.2] at counted
  by_cases opens : c = '['
  · rw [if_pos opens] at counted
    exact ⟨_, counted⟩
  by_cases closes : c = ']'
  · rw [if_neg opens, if_pos closes] at counted
    split at counted
    · cases counted
    · exact ⟨_, counted⟩
  · rw [if_neg opens, if_neg closes] at counted
    exact ⟨_, counted⟩

theorem countMarks_unquoted (name : Text) {rest : Text} (unquoted : name.Unquoted)
    (noParen : .char '(' ∉ name ∧ .char ')' ∉ name)
    {parens brackets : Nat} {counts : Nat × Nat}
    (counted : countMarks parens brackets (Span.scan (name ++ rest)) = .ok counts) :
    ∃ brackets', countMarks parens brackets' (Span.scan rest) = .ok counts := by
  induction name generalizing brackets with
  | nil => exact ⟨brackets, counted⟩
  | cons c name ih =>
      simp only [List.mem_cons, not_or] at noParen
      rw [List.cons_append, scan_plain (unquoted c List.mem_cons_self)] at counted
      obtain ⟨brackets', later⟩ := countMarks_plain ⟨Ne.symm noParen.1.1, Ne.symm noParen.2.1⟩ counted
      exact ih unquoted.tail ⟨noParen.1.2, noParen.2.2⟩ later

/-- A text whose quotes are closed and whose marks are balanced. -/
def Even (s : Text) : Prop := Closed s ∧ countMarks 0 0 (Span.scan s) = .ok (0, 0)

theorem Even.countMarks {s : Text} (even : Even s) (parens brackets : Nat) (spans : List Span) :
    Text.countMarks parens brackets (Span.scan s ++ spans) = Text.countMarks parens brackets spans := by
  have shifted := countMarks_inside even.1 even.2 parens brackets spans
  simpa using shifted

theorem countMarks_bracket {rest : Text} (inside : Even (Lexeme.cutBracket 0 rest).1) {parens brackets : Nat}
    {counts : Nat × Nat} (counted : countMarks parens brackets (Span.scan (.char '[' :: rest)) = .ok counts) :
    ∃ brackets', countMarks parens brackets' (Span.scan (Lexeme.cutBracket 0 rest).2) = .ok counts := by
  rw [scan_plain rfl] at counted
  obtain ⟨_, counted⟩ := countMarks_plain ⟨by decide, by decide⟩ counted
  rcases Lexeme.cutBracket_whole 0 rest with whole | whole
  · rw [whole, inside.1.scan_append, inside.countMarks] at counted
    exact ⟨_, counted⟩
  · rw [whole, inside.1.scan_append, inside.countMarks, scan_plain rfl] at counted
    exact countMarks_plain ⟨by decide, by decide⟩ counted

end Text

namespace Lexeme

theorem term_counted {c : CodePoint} (noOperator : Operator.ofChar? c = none) (noQuote : Quote.of? c = none)
    {rest : Text}
    {parens brackets : Nat} {counts : Nat × Nat}
    (counted : Text.countMarks parens brackets (Span.scan (c :: rest)) = .ok counts) :
    ∃ brackets', Text.countMarks parens brackets' (Span.scan (cutTerm ' ' c rest).2) = .ok counts := by
  obtain ⟨unquoted, whole⟩ := cutTerm_whole ' ' c rest
  have noOpen := Stops.notMem_cutTerm (.inl rfl : Stops '(') ' ' c rest
  have noClose := Stops.notMem_cutTerm (.inr (.inl rfl) : Stops ')') ' ' c rest
  have noParen : c ≠ '(' ∧ c ≠ ')' := by
    constructor <;> rintro rfl <;> cases noOperator
  rw [whole] at counted
  refine Text.countMarks_unquoted (c :: (cutTerm ' ' c rest).1) ?_ ?_ counted
  · exact List.forall_mem_cons.mpr ⟨noQuote, unquoted⟩
  · simp only [List.mem_cons, not_or]
    exact ⟨⟨noParen.1.symm, noOpen⟩, noParen.2.symm, noClose⟩

theorem pair_counted {c next : CodePoint} {op : Operator} (pair : Operator.ofPair? c next = some op) {rest : Text}
    {parens brackets : Nat} {counts : Nat × Nat}
    (counted : Text.countMarks parens brackets (Span.scan (c :: next :: rest)) = .ok counts) :
    op.isInfix = true ∧ ∃ brackets', Text.countMarks parens brackets' (Span.scan rest) = .ok counts := by
  have plain : (c ≠ '(' ∧ c ≠ ')') ∧ (next ≠ '(' ∧ next ≠ ')') ∧ op.isInfix = true := by
    unfold Operator.ofPair? at pair
    split at pair
    all_goals first | (obtain rfl := Option.some.inj pair; decide) | cases pair
  obtain ⟨first, second⟩ := Operator.ofPair?_unquoted pair
  rw [Text.scan_plain first, Text.scan_plain second] at counted
  obtain ⟨_, counted⟩ := Text.countMarks_plain plain.1 counted
  exact ⟨plain.2.2, Text.countMarks_plain plain.2.1 counted⟩

theorem single_counted {c : CodePoint} {op : Operator} (single : Operator.ofChar? c = some op)
    (noQuote : Quote.of? c = none)
    {rest : Text} {depth brackets : Nat} {counts : Nat × Nat}
    (counted : Text.countMarks depth brackets (Span.scan (c :: rest)) = .ok counts) (spelling : Text) :
    ∃ depth' brackets', Text.countMarks depth' brackets' (Span.scan rest) = .ok counts ∧
      ∀ others, parens depth (.operator op spelling :: others) = parens depth' others := by
  rw [Text.scan_plain noQuote] at counted
  by_cases opens : c = '('
  · subst opens
    obtain rfl := Option.some.inj single
    exact ⟨_, _, counted, parens_open depth spelling⟩
  by_cases closes : c = ')'
  · subst closes
    obtain rfl := Option.some.inj single
    rw [Text.countMarks, if_neg (by decide), if_pos rfl] at counted
    split at counted
    · cases counted
    · rename_i positive
      obtain ⟨fewer, rfl⟩ : ∃ fewer, depth = fewer + 1 := ⟨depth - 1, by omega⟩
      exact ⟨_, _, counted, parens_close fewer spelling⟩
  · have other : op ≠ .openParen ∧ op ≠ .closeParen := by
      unfold Operator.ofChar? at single
      split at single
      all_goals first | contradiction | (obtain rfl := Option.some.inj single; decide)
    obtain ⟨_, counted⟩ := Text.countMarks_plain ⟨opens, closes⟩ counted
    exact ⟨_, _, counted, parens_skip (noParen_operator spelling other) depth⟩

/-- If the texts in brackets are balanced, the count of marks counts the parentheses among the lexemes. -/
theorem parens_scan {s : Text} {lexemes : List Lexeme} (scanned : scan s = .ok lexemes)
    (inside : ∀ lexeme ∈ lexemes, ∀ inner, lexeme.inside? = some inner → inner.Even) {depth brackets : Nat}
    {counts : Nat × Nat} (counted : Text.countMarks depth brackets (Span.scan s) = .ok counts) :
    parens depth lexemes = some counts.1 := by
  -- what is even leaves the count as it was, so that only operators of one sign change it
  fun_induction scan s generalizing lexemes depth brackets
  case case1 =>
      cases scanned
      simp only [Span.scan, Span.scanWith, Text.countMarks, Except.ok.injEq] at counted
      rw [← counted]
      rfl
  case case2 c rest blank ih =>
      have noParen : c ≠ '(' ∧ c ≠ ')' := by
        constructor <;> rintro rfl <;> exact absurd blank (by decide)
      rw [Text.scan_plain (blank_unquoted blank)] at counted
      obtain ⟨_, later⟩ := Text.countMarks_plain noParen counted
      exact ih scanned inside later
  case case3 c rest visible op pair ih =>
      obtain ⟨others, later, rfl⟩ := map_cons_eq_ok.mp scanned
      cases rest with
      | nil => cases pair
      | cons next more =>
          obtain ⟨between, _, counted⟩ := pair_counted pair counted
          rw [parens_skip (noParen_between op _ between)]
          exact ih later (fun other member => inside other (List.mem_cons_of_mem _ member)) counted
  case case4 => cases scanned
  case case5 c rest visible noPair quote opens body after found ih =>
      obtain ⟨others, later, rfl⟩ := map_cons_eq_ok.mp scanned
      obtain rfl := Quote.of?_eq_some opens
      rw [Text.cut?_append found, Text.scan_closed (Text.cut?_before found)] at counted
      rw [parens_skip (noParen_value rfl)]
      exact ih later (fun other member => inside other (List.mem_cons_of_mem _ member)) counted
  case case6 => cases scanned
  case case7 rest inner filled visible noPair noQuote ih =>
      obtain ⟨others, later, rfl⟩ := map_cons_eq_ok.mp scanned
      obtain ⟨_, counted⟩ := Text.countMarks_bracket (inside _ List.mem_cons_self _ rfl) counted
      rw [parens_skip (noParen_value rfl)]
      exact ih later (fun other member => inside other (List.mem_cons_of_mem _ member)) counted
  case case8 c rest visible noPair noQuote noBracket op single ih =>
      obtain ⟨others, later, rfl⟩ := map_cons_eq_ok.mp scanned
      obtain ⟨_, _, counted, here⟩ := single_counted single noQuote counted _
      rw [here]
      exact ih later (fun other member => inside other (List.mem_cons_of_mem _ member)) counted
  case case9 => cases scanned
  case case10 c rest visible noPair noQuote noBracket noOperator name after follows inner filled ih =>
      obtain ⟨others, later, rfl⟩ := map_cons_eq_ok.mp scanned
      obtain ⟨_, counted⟩ := term_counted noOperator noQuote counted
      rw [follows] at counted
      obtain ⟨_, counted⟩ := Text.countMarks_bracket (inside _ List.mem_cons_self _ rfl) counted
      rw [parens_skip (noParen_value rfl)]
      exact ih later (fun other member => inside other (List.mem_cons_of_mem _ member)) counted
  case case11 c rest visible noPair noQuote noBracket noOperator name noIndex ih =>
      obtain ⟨others, later, rfl⟩ := map_cons_eq_ok.mp scanned
      obtain ⟨_, counted⟩ := term_counted noOperator noQuote counted
      rw [parens_skip (noParen_value rfl)]
      exact ih later (fun other member => inside other (List.mem_cons_of_mem _ member)) counted

end Lexeme

namespace Token

theorem parens_mark {previous : Option Lexeme} {marks : Option Marks} {lexemes : List Lexeme} {tokens : List Token}
    (marked : mark previous marks lexemes = .ok tokens) (depth : Nat) :
    Lexeme.parens depth (tokens.map (·.lexeme)) = Lexeme.parens depth lexemes := by
  induction lexemes generalizing previous marks tokens depth with
  | nil =>
      unfold mark at marked
      split at marked
      · cases marked
      · cases marked
        rfl
  | cons lexeme rest ih =>
      rcases mark_cons previous marks lexeme with ⟨op, known, isPrefix, -, here⟩ | ⟨error, refused⟩ |
        ⟨token, same, taken⟩
      · rw [here] at marked
        have noParen : lexeme.NoParen := by
          cases lexeme with
          | operator op' spelling =>
              obtain rfl := Option.some.inj known
              refine Lexeme.noParen_operator spelling ⟨?_, ?_⟩
              · rintro rfl
                cases isPrefix
              · rintro rfl
                cases isPrefix
          | _ => cases known
        rw [Lexeme.parens_skip noParen]
        exact ih marked depth
      · rw [refused] at marked
        cases marked
      · rw [taken] at marked
        obtain ⟨others, later, rfl⟩ := map_cons_eq_ok.mp marked
        rw [List.map_cons, same, Lexeme.parens, Lexeme.parens, ih later, ih later, ih later]

theorem paired {s : Text} {lexemes : List Lexeme} {tokens : List Token} (even : s.Even)
    (scanned : Lexeme.scan s = .ok lexemes)
    (inside : ∀ lexeme ∈ lexemes, ∀ inner, lexeme.inside? = some inner → inner.Even)
    (marked : mark none none (Lexeme.collapseSigns lexemes) = .ok tokens) : Lexeme.Paired (tokens.map (·.lexeme)) := by
  intro depth
  have counted : Text.countMarks depth 0 (Span.scan s) = .ok (depth, 0) := by
    have alone := even.countMarks depth 0 []
    rwa [List.append_nil] at alone
  rw [parens_mark marked, Lexeme.parens_collapseSigns, Lexeme.parens_scan scanned inside counted]

end Token

namespace Expr

variable {bracketed : Text → Except Malformed Expr}

mutual

theorem Yields.paired {inCall : Bool} {e : Expr} {tokens : List Token} (yields : Yields bracketed inCall e tokens) :
    Lexeme.Paired (tokens.map (·.lexeme)) := by
  have nothing : Lexeme.Paired [] := fun depth => rfl
  match yields with
  | .term text => exact .cons (Lexeme.noParen_value rfl) nothing
  | .element name _ => exact .cons (Lexeme.noParen_value rfl) nothing
  | .quoted text => exact .cons (Lexeme.noParen_value rfl) nothing
  | .bracket _ => exact .cons (Lexeme.noParen_value rfl) nothing
  | @Yields.group _ _ _ _ opening closing _ _ inner => simpa using inner.paired.group opening closing
  | @Yields.call _ _ name _ _ opening closing _ _ args =>
      have enclosed := args.paired.group opening closing
      have whole : Lexeme.Paired (.term name none :: _) := .cons (Lexeme.noParen_value rfl) enclosed
      simpa using whole
  | .negate operand => exact operand.paired
  | .invert operand => exact operand.paired
  | @Yields.binary _ _ op _ _ _ _ spelling _ left right =>
      have whole := left.paired.append (.cons (Lexeme.noParen_between (.binary op) spelling rfl) right.paired)
      simpa using whole

theorem YieldsAll.paired {args : List Expr} {tokens : List Token} (yields : YieldsAll bracketed args tokens) :
    Lexeme.Paired (tokens.map (·.lexeme)) := by
  match yields with
  | .none => exact fun depth => rfl
  | .one first => exact first.paired
  | @YieldsAll.more _ _ _ _ _ _ comma _ first others =>
      have whole := first.paired.append (.cons (Lexeme.noParen_between .comma comma rfl) others.paired)
      simpa using whole

end

end Expr

end CommandScript
