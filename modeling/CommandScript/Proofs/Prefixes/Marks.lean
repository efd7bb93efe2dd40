import CommandScript.Proofs.Grammar.Tokens
import CommandScript.Proofs.Prefixes.Runs

/-! A run of prefix operators becomes the marks of the token it stands before. The tokens before and after it are those
of the text without the run. -/

namespace CommandScript

namespace Prefix

def operator : Prefix → Operator
  | sign mark => .binary mark.op
  | bang => .not

def lexeme (op : Prefix) : Lexeme := .operator op.operator op.operator.text

/-- What a run comes to once neighbouring signs are joined: a run with the same parities. -/
structure Joined (run joined : List Prefix) : Prop where
  negates : Prefix.negates joined = Prefix.negates run
  inverts : Prefix.inverts joined = Prefix.inverts run

def marks (run : List Prefix) (before : Option Token.Marks) : Option Token.Marks :=
  run.foldl (fun marks op => some (Token.Marks.add marks op.operator)) before

theorem marks_any (run : List Prefix) (before : Option Token.Marks) :
    (marks run before).any (·.negated) = (before.any (·.negated) != Prefix.negates run) ∧
      (marks run before).any (·.inverted) = (before.any (·.inverted) != Prefix.inverts run) := by
  induction run generalizing before with
  | nil => simp [marks, negates, inverts, odd]
  | cons op run ih =>
      have minus : decide (op.operator = .minus) = op.isMinus := by rcases op with (_ | _) | _ <;> rfl
      have bang : decide (op.operator = .not) = op.isBang := by rcases op with (_ | _) | _ <;> rfl
      obtain ⟨negated, inverted⟩ := ih (some (Token.Marks.add before op.operator))
      constructor
      · rw [marks, List.foldl_cons, ← marks, negated, negates_cons]
        simp [Token.Marks.add, minus]
      · rw [marks, List.foldl_cons, ← marks, inverted, inverts_cons]
        simp [Token.Marks.add, bang]

end Prefix

namespace Lexeme

open Prefix

theorem collapseSigns_head {rest : List Lexeme} (other : ∀ next ∈ rest.head?, next.isSign = false) :
    ∀ next ∈ (collapseSigns rest).head?, next.isSign = false := by
  cases rest with
  | nil => nofun
  | cons next more =>
      rw [collapseSigns_other (other next rfl)]
      rintro _ ⟨⟩
      exact other next rfl

theorem collapseSigns_signs (first second : Sign) {rest more : List Lexeme}
    (collapsed : collapseSigns rest = second.lexeme :: more) :
    collapseSigns (first.lexeme :: rest) = (first.join (some second)).lexeme :: more := by
  cases first <;> cases second <;> simp [collapseSigns, collapsed, Sign.lexeme] <;> rfl

theorem collapseSigns_run (run : List Prefix) {rest : List Lexeme} (other : ∀ next ∈ rest.head?, next.isSign = false) :
    ∃ joined, Prefix.Joined run joined ∧
      collapseSigns (run.map lexeme ++ rest) = joined.map lexeme ++ collapseSigns rest := by
  induction run with
  | nil => exact ⟨[], ⟨rfl, rfl⟩, rfl⟩
  | cons op run ih =>
      obtain ⟨joined, ⟨signs, bangs⟩, collapsed⟩ := ih
      have kept : Prefix.Joined (op :: run) (op :: joined) :=
        ⟨by rw [negates_cons, negates_cons, signs], by rw [inverts_cons, inverts_cons, bangs]⟩
      rw [List.map_cons, List.cons_append]
      cases op with
      | bang => exact ⟨bang :: joined, kept, by rw [collapseSigns_other rfl, collapsed]; rfl⟩
      | sign first =>
          rcases joined with _ | ⟨_ | _, joined⟩
          · refine ⟨[sign first], kept, ?_⟩
            exact @collapseSigns_sign first none _ _ collapsed (collapseSigns_head other)
          · rename_i second
            refine ⟨sign (first.join (some second)) :: joined, ⟨?_, ?_⟩, ?_⟩
            · rw [negates_cons, negates_cons, ← signs, negates_cons]
              cases first <;> cases second <;> cases negates joined <;> rfl
            · rw [inverts_cons, inverts_cons, ← bangs, inverts_cons]
              simp [isBang]
            · exact collapseSigns_signs first second collapsed
          · refine ⟨sign first :: bang :: joined, kept, ?_⟩
            exact @collapseSigns_sign first none _ _ collapsed (by rintro _ ⟨⟩; rfl)

theorem collapseSigns_filled {lexemes : List Lexeme} (filled : lexemes ≠ []) : collapseSigns lexemes ≠ [] := by
  obtain ⟨first, rest, rfl⟩ := List.exists_cons_of_ne_nil filled
  unfold collapseSigns
  split
  · split <;> exact List.cons_ne_nil _ _
  · exact List.cons_ne_nil _ _

theorem collapseSigns_append {before rest : List Lexeme} (other : ∀ last ∈ before.getLast?, last.isSign = false) :
    collapseSigns (before ++ rest) = collapseSigns before ++ collapseSigns rest := by
  induction before with
  | nil => rfl
  | cons first more ih =>
      cases more with
      | nil =>
          have noSign : first.isSign = false := other first rfl
          rw [List.singleton_append, collapseSigns_other noSign, collapseSigns_other noSign]
          rfl
      | cons second more =>
          have inner := ih fun last found => other last (by rwa [List.getLast?_cons_cons])
          obtain ⟨next, others, shape⟩ :=
            List.exists_cons_of_ne_nil (collapseSigns_filled (List.cons_ne_nil second more))
          rw [shape] at inner
          rw [List.cons_append, collapseSigns.eq_def, collapseSigns.eq_def (first :: second :: more)]
          dsimp only
          rw [inner, shape, List.cons_append]
          cases first with
          | operator op spelling =>
              cases next with
              | operator op' spelling' =>
                  dsimp only
                  split <;> rfl
              | _ => rfl
          | _ => rfl

theorem collapseSigns_last {last : Lexeme} (noSign : last.isSign = false) {lexemes : List Lexeme}
    (ends : lexemes.getLast? = some last) : (collapseSigns lexemes).getLast? = some last := by
  induction lexemes with
  | nil => cases ends
  | cons first more ih =>
      cases more with
      | nil =>
          obtain rfl : first = last := Option.some.inj ends
          rw [collapseSigns_other noSign]
          rfl
      | cons second more =>
          have inner := ih (by rwa [List.getLast?_cons_cons] at ends)
          unfold collapseSigns
          split
          · rename_i op spelling op' spelling' others collapsed
            rw [collapsed] at inner
            split
            · rename_i signs
              cases others with
              | nil =>
                  -- The sign that is joined is not the last lexeme, which is no sign.
                  cases inner
                  exact absurd (Bool.and_eq_true_iff.mp signs).2 (by simpa [isSign, operator?] using noSign)
              | cons third others => rwa [List.getLast?_cons_cons] at inner ⊢
            · rwa [List.getLast?_cons_cons]
          · obtain ⟨next, others, shape⟩ :=
              List.exists_cons_of_ne_nil (collapseSigns_filled (List.cons_ne_nil second more))
            rw [shape] at inner ⊢
            rwa [List.getLast?_cons_cons]

end Lexeme

namespace Token

def Opens (lexeme : Lexeme) : Prop := ∃ op spelling, lexeme = .operator op spelling ∧ op ≠ .closeParen ∧
    isMark op = false

theorem mark_run {previous : Option Lexeme} (start : atOperandStart previous = true) (run : List Prefix)
    (before : Option Marks) (rest : List Lexeme) :
    mark previous before (run.map Prefix.lexeme ++ rest) = mark previous (Prefix.marks run before) rest := by
  induction run generalizing before with
  | nil => rfl
  | cons op run ih =>
      have isPrefix : isMark op.operator = true := by rcases op with (_ | _) | _ <;> rfl
      rw [List.map_cons, List.cons_append, mark.eq_def]
      simp only [Prefix.lexeme, Lexeme.operator?, Option.filter, isPrefix, start, Bool.and_self, if_true]
      exact ih _

/-- The lexeme that starts an operand takes the marks before it, but a quoted text takes no sign. -/
theorem mark_start {first : Lexeme} (starts : startsOperand first = true) (noQuote : first.isQuoted = false)
    (previous : Option Lexeme) (marks : Option Marks) (rest : List Lexeme) :
    mark previous marks (first :: rest) =
      (mark (some first) none rest).map (⟨first, marks.any (·.negated), marks.any (·.inverted)⟩ :: ·) := by
  have unmarking : ∀ op, first.operator? = some op → isMark op = false ∧ op ≠ .not := by
    cases first with
    | operator op spelling =>
        obtain rfl : op = .openParen := by
          simpa [startsOperand, Lexeme.isValue, Lexeme.isOperator, Lexeme.operator?] using starts
        rintro _ ⟨⟩
        exact ⟨rfl, by decide⟩
    | _ => simp [Lexeme.operator?]
  have noMark : (first.operator?.filter fun op => isMark op && atOperandStart previous) = none := by
    refine Option.filter_eq_none_iff.mpr fun op known => ?_
    simp [(unmarking op known).1]
  have noBang : first.isOperator .not = false :=
    decide_eq_false fun known => (unmarking .not known).2 rfl
  rw [mark.eq_def]
  simp only [noMark, noBang]
  cases marks with
  | none => rfl
  | some found =>
      rw [startsOperand] at starts
      simp only [starts]
      cases first with
      | quoted body => cases noQuote
      | _ => rfl

theorem mark_cons (previous : Option Lexeme) (marks : Option Marks) (lexeme : Lexeme) :
    (∃ op, lexeme.operator? = some op ∧ isMark op = true ∧ atOperandStart previous = true ∧
      ∀ rest, mark previous marks (lexeme :: rest) = mark previous (some (Marks.add marks op)) rest) ∨
    (∃ error, ∀ rest, mark previous marks (lexeme :: rest) = .error error) ∨
    ∃ token : Token, token.lexeme = lexeme ∧
      ∀ rest, mark previous marks (lexeme :: rest) = (mark (some lexeme) none rest).map (token :: ·) := by
  -- a sign is a mark only where an operand starts; elsewhere it stands between two
  cases found : lexeme.operator?.filter fun op => isMark op && atOperandStart previous with
  | some op =>
      obtain ⟨known, marking⟩ := Option.filter_eq_some_iff.mp found
      obtain ⟨isPrefix, start⟩ := Bool.and_eq_true_iff.mp marking
      refine .inl ⟨op, known, isPrefix, start, fun rest => ?_⟩
      rw [mark.eq_def]
      simp only [found]
  | none =>
      right
      by_cases misplaced : lexeme.isOperator .not = true
      · refine .inl ⟨.followedBy ((previous.map Lexeme.shown).getD []) "!", fun rest => ?_⟩
        rw [mark.eq_def]
        simp only [found, misplaced, if_true]
      cases marks with
      | none =>
          refine .inr ⟨{ lexeme }, rfl, fun rest => ?_⟩
          rw [mark.eq_def]
          simp only [found, misplaced]
          rfl
      | some marks =>
          by_cases starts : (lexeme.isValue || lexeme.isOperator .openParen) = true
          · by_cases negated : lexeme.isQuoted = true ∧ marks.negated = true
            · obtain ⟨body, rfl⟩ : ∃ body, lexeme = .quoted body := by
                cases lexeme with
                | quoted body => exact ⟨body, rfl⟩
                | _ => cases negated.1
              refine .inl ⟨.negatedQuote body, fun rest => ?_⟩
              rw [mark.eq_def]
              simp only [negated.2]
              rfl
            · refine .inr ⟨⟨lexeme, marks.negated, marks.inverted⟩, rfl, fun rest => ?_⟩
              rw [mark.eq_def]
              simp only [found, misplaced, starts]
              cases lexeme with
              | quoted body =>
                  have plain : marks.negated = false := by simpa [Lexeme.isQuoted] using negated
                  rw [plain]
                  rfl
              | _ => rfl
          · refine .inl ⟨.followedBy marks.last.text lexeme.shown, fun rest => ?_⟩
            rw [mark.eq_def]
            simp only [found, misplaced, starts]
            rfl

/-- Marking goes on after a lexeme that is no prefix operator as it does at the start of a text. -/
theorem mark_append {front : List Lexeme} {last : Lexeme} (opens : Opens last) (previous : Option Lexeme)
    (marks : Option Marks) :
    (∃ error, ∀ rest, mark previous marks (front ++ last :: rest) = .error error) ∨
    ∃ tokens : List Token, tokens.getLast?.map (·.lexeme) = some last ∧
      ∀ rest, mark previous marks (front ++ last :: rest) = (mark (some last) none rest).map (tokens ++ ·) := by
  induction front generalizing previous marks with
  | nil =>
      obtain ⟨op, spelling, rfl, -, plain⟩ := opens
      rcases mark_cons previous marks (.operator op spelling) with
        ⟨other, ⟨⟩, marking, -, -⟩ | ⟨error, refused⟩ | ⟨token, same, taken⟩
      · rw [plain] at marking
        cases marking
      · exact .inl ⟨error, refused⟩
      · exact .inr ⟨[token], by rw [← same]; rfl, taken⟩
  | cons lexeme front ih =>
      rcases mark_cons previous marks lexeme with ⟨op, -, -, -, marked⟩ | ⟨error, refused⟩ | ⟨token, same, taken⟩
      · simp only [List.cons_append, marked]
        exact ih previous _
      · exact .inl ⟨error, fun rest => refused _⟩
      · rcases ih (some lexeme) none with ⟨error, refused⟩ | ⟨tokens, ends, others⟩
        · exact .inl ⟨error, fun rest => by rw [List.cons_append, taken, refused]; rfl⟩
        · refine .inr ⟨token :: tokens, ?_, fun rest => ?_⟩
          · obtain ⟨final, front, rfl⟩ : ∃ final front, tokens = front ++ [final] := by
              rcases List.eq_nil_or_concat tokens with rfl | ⟨front, final, rfl⟩
              · cases ends
              · exact ⟨final, front, List.concat_eq_append⟩
            rw [← List.cons_append, List.getLast?_concat] at *
            exact ends
          · rw [List.cons_append, taken, others]
            cases mark (some last) none rest <;> rfl

theorem Opens.noSign {lexeme : Lexeme} (opens : Opens lexeme) : lexeme.isSign = false := by
  obtain ⟨op, spelling, rfl, -, plain⟩ := opens
  rw [isMark, Bool.or_eq_false_iff] at plain
  exact plain.1

theorem Opens.start {lexeme : Lexeme} (opens : Opens lexeme) : atOperandStart (some lexeme) = true := by
  obtain ⟨op, spelling, rfl, open_, -⟩ := opens
  simpa [atOperandStart, Lexeme.operator?] using open_

theorem startsOperand_noSign {first : Lexeme} (starts : startsOperand first = true) : first.isSign = false := by
  cases first with
  | operator op spelling =>
      obtain rfl : op = .openParen := by
        simpa [startsOperand, Lexeme.isValue, Lexeme.isOperator, Lexeme.operator?] using starts
      rfl
  | _ => rfl

/-- A run before an operand gives its parities to the operand's first token, and changes no other token. -/
theorem mark_prefixed {before after : List Lexeme} {first : Lexeme} (place : ∀ last ∈ before.getLast?, Opens last)
    (starts : startsOperand first = true) (noQuote : first.isQuoted = false) {plain : List Token}
    (marked : mark none none (Lexeme.collapseSigns (before ++ first :: after)) = .ok plain) :
    ∃ front rest, plain = front ++ { lexeme := first } :: rest ∧
      (∀ last ∈ front.getLast?, atOperandStart (some last.lexeme) = true) ∧
      ∀ run : List Prefix, mark none none (Lexeme.collapseSigns (before ++ (run.map Prefix.lexeme ++ first :: after))) =
        .ok (front ++ ⟨first, Prefix.negates run, Prefix.inverts run⟩ :: rest) := by
  have noSign := startsOperand_noSign starts
  have joinedRun (run : List Prefix) : ∃ joined, Prefix.Joined run joined ∧
      Lexeme.collapseSigns (run.map Prefix.lexeme ++ first :: after) =
        joined.map Prefix.lexeme ++ first :: Lexeme.collapseSigns after := by
    obtain ⟨joined, same, collapsed⟩ := @Lexeme.collapseSigns_run run (first :: after) (by rintro _ ⟨⟩; exact noSign)
    exact ⟨joined, same, by rw [collapsed, Lexeme.collapseSigns_other noSign]⟩
  -- The operand is marked the same way after the last lexeme before it and at the start of the text.
  have operand {previous : Option Lexeme} (start : atOperandStart previous = true) (run : List Prefix) :
      mark previous none (Lexeme.collapseSigns (run.map Prefix.lexeme ++ first :: after)) =
        (mark (some first) none (Lexeme.collapseSigns after)).map
          (⟨first, Prefix.negates run, Prefix.inverts run⟩ :: ·) := by
    obtain ⟨joined, same, collapsed⟩ := joinedRun run
    obtain ⟨negated, inverted⟩ := Prefix.marks_any joined none
    rw [collapsed, mark_run start, mark_start starts noQuote, negated, inverted, same.negates, same.inverts]
    simp
  cases ends : before.getLast? with
  | none =>
      obtain rfl := List.getLast?_eq_none_iff.mp ends
      have unmarked := @operand none rfl []
      rw [List.nil_append] at marked
      rw [List.map_nil, List.nil_append, marked] at unmarked
      obtain ⟨rest, others, rfl⟩ := map_cons_eq_ok.mp unmarked.symm
      refine ⟨[], rest, rfl, nofun, fun run => ?_⟩
      rw [List.nil_append, operand rfl run, others]
      rfl
  | some last =>
      have opens : Opens last := place last ends
      have apart (rest : List Lexeme) :
          Lexeme.collapseSigns (before ++ rest) = Lexeme.collapseSigns before ++ Lexeme.collapseSigns rest :=
        Lexeme.collapseSigns_append fun final found => (place final found).noSign
      obtain ⟨init, joined⟩ := List.getLast?_eq_some_iff.mp (Lexeme.collapseSigns_last opens.noSign ends)
      rcases @mark_append init last opens none none with ⟨error, refused⟩ | ⟨front, final, taken⟩
      · rw [apart, joined, List.append_assoc, List.singleton_append, refused] at marked
        cases marked
      · have whole (run : List Prefix) :
            mark none none (Lexeme.collapseSigns (before ++ (run.map Prefix.lexeme ++ first :: after))) =
              ((mark (some first) none (Lexeme.collapseSigns after)).map
                (⟨first, Prefix.negates run, Prefix.inverts run⟩ :: ·)).map (front ++ ·) := by
          rw [apart, joined, List.append_assoc, List.singleton_append, taken, operand opens.start run]
        have unmarked := whole []
        rw [List.map_nil, List.nil_append, marked] at unmarked
        cases others : mark (some first) none (Lexeme.collapseSigns after) with
        | error error =>
            rw [others] at unmarked
            cases unmarked
        | ok rest =>
            rw [others] at unmarked
            refine ⟨front, rest, Except.ok.inj unmarked, fun token found => ?_, fun run => by rw [whole, others]; rfl⟩
            rw [Option.mem_def.mp found] at final
            have same : token.lexeme = last := Option.some.inj final
            rw [same]
            exact opens.start

theorem checkNeighbours_congr {tokens other : List Token} (same : tokens.map (·.lexeme) = other.map (·.lexeme)) :
    checkNeighbours tokens = checkNeighbours other := by
  have pairs (tokens other : List Token) (same : tokens.map (·.lexeme) = other.map (·.lexeme)) :
      checkPairs tokens = checkPairs other := by
    induction tokens generalizing other with
    | nil => rw [List.map_eq_nil_iff.mp same.symm]
    | cons left rest ih =>
        obtain ⟨left', rest', rfl, head, tail⟩ := List.map_eq_cons_iff.mp same.symm
        have inner := ih rest' tail.symm
        cases rest with
        | nil => rw [List.map_eq_nil_iff.mp tail]; rfl
        | cons right more =>
            obtain ⟨right', more', rfl, next, -⟩ := List.map_eq_cons_iff.mp tail
            rw [checkPairs, checkPairs, inner, head, next]
  cases tokens with
  | nil => rw [List.map_eq_nil_iff.mp same.symm]
  | cons left rest =>
      obtain ⟨left', rest', rfl, head, -⟩ := List.map_eq_cons_iff.mp same.symm
      have ends (first : Token) (more : List Token) : ∃ last, (first :: more).getLast? = some last :=
        ⟨_, List.getLast?_eq_some_getLast (List.cons_ne_nil first more)⟩
      obtain ⟨last, found⟩ := ends left rest
      obtain ⟨last', found'⟩ := ends left' rest'
      have final : (left :: rest).getLast?.map (·.lexeme) = (left' :: rest').getLast?.map (·.lexeme) := by
        rw [← List.getLast?_map, same, List.getLast?_map]
      rw [found, found', Option.map_some, Option.map_some, Option.some.injEq] at final
      rw [checkNeighbours, checkNeighbours, pairs _ _ same, found, found']
      simp only [List.head?_cons, head, final]

/-- The tokens of a text with a run before one of its operands are those of the text without the run, but for the marks
of the operand's first token. -/
theorem tokenize_prefixed {plain : Text} {before after : List Lexeme} {first : Lexeme}
    (place : ∀ last ∈ before.getLast?, Opens last) (starts : startsOperand first = true)
    (noQuote : first.isQuoted = false)
    (scanned : Lexeme.scan plain = .ok (before ++ first :: after)) {tokens : List Token}
    (tokenized : tokenize plain = .ok tokens) :
    ∃ front rest, tokens = front ++ { lexeme := first } :: rest ∧
      (∀ last ∈ front.getLast?, atOperandStart (some last.lexeme) = true) ∧
      ∀ (run : List Prefix) (text : Text), Text.checkBalance text = .ok () →
        Lexeme.scan text = .ok (before ++ (run.map Prefix.lexeme ++ first :: after)) →
        tokenize text = .ok (front ++ ⟨first, Prefix.negates run, Prefix.inverts run⟩ :: rest) := by
  obtain ⟨-, -, scanning⟩ := bind_eq_ok.mp tokenized
  obtain ⟨lexemes, known, marking⟩ := bind_eq_ok.mp scanning
  cases scanned.symm.trans known
  obtain ⟨found, marked, checking⟩ := bind_eq_ok.mp marking
  obtain ⟨_, checked, same⟩ := bind_eq_ok.mp checking
  cases same
  obtain ⟨front, rest, rfl, place, prefixed⟩ := mark_prefixed place starts noQuote marked
  refine ⟨front, rest, rfl, place, fun run text balanced spelled => ?_⟩
  refine bind_eq_ok.mpr ⟨(), balanced, bind_eq_ok.mpr ⟨_, spelled, bind_eq_ok.mpr ⟨_, prefixed run, ?_⟩⟩⟩
  refine bind_eq_ok.mpr ⟨(), ?_, rfl⟩
  rw [← checked]
  exact checkNeighbours_congr (by simp)

end Token

end CommandScript
