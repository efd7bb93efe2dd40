import CommandScript.Proofs.Brackets.Groups
import CommandScript.Proofs.Text.Pairs

/-! Partners of parentheses. The check of balance passes over quoted and over braced spans, the search for the
parenthesis that closes another one takes braces for plain characters. The check promises that every parenthesis
outside the spans has a partner; the search finds it exactly if the text between the two closes its quotes and
its parentheses in that reading too. -/

namespace CommandScript

theorem Quote.ofStraight?_eq_some {c : CodePoint} {quote : Quote} :
    ofStraight? c = some quote ↔ of? c = some quote ∧ quote ≠ brace := by
  simp [ofStraight?, Option.filter_eq_some_iff]

theorem Quote.ofStraight?_opening (c : CodePoint) (quote : Quote) (opens : ofStraight? c = some quote) :
    quote.opening = c :=
  of?_eq_some (ofStraight?_eq_some.mp opens).1

namespace Text

theorem cons_eq_append_cons {α : Type} {first mark : α} {rest : List α} {p : List α → Prop} :
    (∃ inner back, first :: rest = inner ++ mark :: back ∧ p inner) ↔
      (first = mark ∧ p []) ∨ ∃ inner back, rest = inner ++ mark :: back ∧ p (first :: inner) := by
  constructor
  · rintro ⟨inner, back, shape, holds⟩
    cases inner with
    | nil => exact .inl ⟨(List.cons.inj shape).1, holds⟩
    | cons other inner =>
        obtain ⟨rfl, later⟩ := List.cons.inj shape
        exact .inr ⟨inner, back, later, holds⟩
  · rintro (⟨rfl, holds⟩ | ⟨inner, back, rfl, holds⟩)
    · exact ⟨[], rest, rfl, holds⟩
    · exact ⟨first :: inner, back, rfl, holds⟩

/-- Spans without a quote that is never closed, whose parentheses are closed together with some that were open
before. -/
structure Settled (depth : Nat) (spans : List Span) : Prop where
  closed : ∀ quote rest, Span.unclosed quote rest ∉ spans
  paired : Pairs (Span.plain '(') (.plain ')') depth spans

namespace Settled

variable {depth : Nat} {spans : List Span}

instance : Decidable (Settled depth spans) :=
  decidable_of_iff ((∀ span ∈ spans, isUnclosed span = false) ∧ Pairs (Span.plain '(') (.plain ')') depth spans) <| by
    constructor
    · rintro ⟨closed, paired⟩
      refine ⟨fun quote rest member => ?_, paired⟩
      cases closed _ member
    · rintro ⟨closed, paired⟩
      refine ⟨fun span member => ?_, paired⟩
      cases span with
      | unclosed quote rest => exact absurd member (closed quote rest)
      | plain c => rfl
      | quoted quote body => rfl

theorem nil_iff : Settled depth [] ↔ depth = 0 := by
  rw [← @Pairs.nil_iff _ _ (Span.plain '(') (.plain ')')]
  exact ⟨Settled.paired, fun paired => ⟨by simp, paired⟩⟩

theorem cons_congr {span : Span} {other : Nat} (shut : ∀ quote rest, span ≠ .unclosed quote rest)
    (pairs : Pairs (Span.plain '(') (.plain ')') depth (span :: spans) ↔
      Pairs (Span.plain '(') (.plain ')') other spans) :
    Settled depth (span :: spans) ↔ Settled other spans := by
  constructor
  · rintro ⟨closed, paired⟩
    exact ⟨fun quote rest member => closed quote rest (List.mem_cons_of_mem _ member), pairs.mp paired⟩
  · rintro ⟨closed, paired⟩
    refine ⟨fun quote rest member => ?_, pairs.mpr paired⟩
    rcases List.mem_cons.mp member with same | among
    · exact shut quote rest same.symm
    · exact closed quote rest among

theorem opening_iff : Settled depth (.plain '(' :: spans) ↔ Settled (depth + 1) spans :=
  cons_congr (by simp) (Pairs.opening_iff (by decide))

theorem closing_iff : Settled depth (.plain ')' :: spans) ↔ ∃ less, depth = less + 1 ∧ Settled less spans := by
  constructor
  · intro settled
    obtain ⟨less, rfl, later⟩ := (Pairs.closing_iff (by decide)).mp settled.paired
    exact ⟨less, rfl, fun quote rest member => settled.closed quote rest (List.mem_cons_of_mem _ member), later⟩
  · rintro ⟨less, rfl, closed, paired⟩
    refine ⟨by simpa using closed, ?_⟩
    exact (Pairs.closing_iff (by decide)).mpr ⟨less, rfl, paired⟩

theorem plain_iff {c : CodePoint} (noOpening : c ≠ '(') (noClosing : c ≠ ')') :
    Settled depth (.plain c :: spans) ↔ Settled depth spans :=
  cons_congr (by simp) (Pairs.other_iff (by simpa) (by simpa))

theorem quoted_iff {quote : Quote} {body : Text} : Settled depth (.quoted quote body :: spans) ↔ Settled depth spans :=
  cons_congr (by simp) (Pairs.other_iff (by simp) (by simp))

theorem not_unclosed {quote : Quote} {rest : Text} : ¬Settled depth (.unclosed quote rest :: spans) :=
  fun settled => settled.closed quote rest List.mem_cons_self

theorem plain_imp {c : CodePoint} {others : List Span} (later : ∀ depth, Settled depth spans → Settled depth others)
    (settled : Settled depth (.plain c :: spans)) : Settled depth (.plain c :: others) := by
  by_cases opens : c = '('
  · subst opens
    exact opening_iff.mpr (later _ (opening_iff.mp settled))
  by_cases closes : c = ')'
  · subst closes
    obtain ⟨less, rfl, inner⟩ := closing_iff.mp settled
    exact closing_iff.mpr ⟨less, rfl, later _ inner⟩
  · exact (plain_iff opens closes).mpr (later _ ((plain_iff opens closes).mp settled))

theorem append {outer : Nat} {others : List Span} (settled : Settled depth spans) (later : Settled outer others) :
    Settled (depth + outer) (spans ++ others) := by
  refine ⟨fun quote rest member => ?_, settled.paired.append (by decide) later.paired⟩
  exact (List.mem_append.mp member).elim (settled.closed quote rest) (later.closed quote rest)

end Settled

theorem closingOffset_eq_some {depth : Nat} {spans : List Span} {n : Nat} :
    closingOffset (depth + 1 : Nat) spans = some n ↔
      ∃ inner back : List Span, spans = inner ++ .plain ')' :: back ∧ Settled depth inner ∧
        n = (Span.flatten inner).length := by
  induction spans generalizing depth n with
  | nil => simp [closingOffset]
  | cons span rest ih =>
      rw [cons_eq_append_cons]
      cases span with
      | unclosed quote body => simp [closingOffset, Settled.not_unclosed]
      | quoted quote body =>
          simp only [closingOffset, Option.map_eq_some_iff, ih, Settled.quoted_iff, reduceCtorEq, false_and, false_or]
          constructor
          · rintro ⟨m, ⟨inner, back, shape, settled, rfl⟩, rfl⟩
            exact ⟨inner, back, shape, settled, by simp [Span.flatten, Nat.add_comm]⟩
          · rintro ⟨inner, back, shape, settled, rfl⟩
            exact ⟨_, ⟨inner, back, shape, settled, rfl⟩, by simp [Span.flatten, Nat.add_comm]⟩
      | plain c =>
          -- the search goes on behind the character with as many parentheses as are open then
          have further {more : Nat} (onward : ∀ inner, Settled depth (.plain c :: inner) ↔ Settled more inner) :
              (closingOffset (more + 1 : Nat) rest).map (· + 1) = some n ↔
                ∃ inner back : List Span, rest = inner ++ .plain ')' :: back ∧ Settled depth (.plain c :: inner) ∧
                  n = (Span.flatten (.plain c :: inner)).length := by
            simp only [Option.map_eq_some_iff, ih, onward]
            constructor
            · rintro ⟨m, ⟨inner, back, shape, settled, rfl⟩, rfl⟩
              exact ⟨inner, back, shape, settled, rfl⟩
            · rintro ⟨inner, back, shape, settled, rfl⟩
              exact ⟨_, ⟨inner, back, shape, settled, rfl⟩, rfl⟩
          by_cases opens : c = '('
          · subst opens
            simp only [closingOffset, if_true, Span.plain.injEq, CodePoint.char.injEq, Char.reduceEq, false_and,
              false_or]
            exact further fun inner => Settled.opening_iff
          by_cases closes : c = ')'
          · subst closes
            simp only [closingOffset, CodePoint.char.injEq, Char.reduceEq, if_false, if_true, true_and, Settled.nil_iff]
            cases depth with
            | zero => simp [Settled.closing_iff, Span.flatten, eq_comm]
            | succ less =>
                have deeper : ((less + 1 + 1 : Nat) : Int) ≠ 1 := by omega
                have shallower : ((less + 1 + 1 : Nat) : Int) - 1 = ((less + 1 : Nat) : Int) := by omega
                rw [if_neg deeper, shallower]
                simp only [Nat.add_one_ne_zero, false_and, false_or]
                exact further fun inner => by simp [Settled.closing_iff]
          · simp only [closingOffset, if_neg opens, Span.plain.injEq, closes, false_and, false_or]
            exact further fun inner => Settled.plain_iff opens closes

/-- Where the check of balance closes more parentheses than were open before, the first of these has a partner. -/
theorem exists_partner {spans : List Span} {parens brackets depth : Nat} {counts : Nat × Nat}
    (counted : countMarks (parens + depth + 1) brackets spans = .ok counts) (fewer : counts.1 ≤ parens) :
    ∃ inner back : List Span, spans = inner ++ .plain ')' :: back ∧ Settled depth inner := by
  induction spans generalizing brackets depth with
  | nil =>
      cases counted
      simp only at fewer
      omega
  | cons span rest ih =>
      rw [cons_eq_append_cons]
      cases span with
      | unclosed quote body =>
          cases counted
          simp only at fewer
          omega
      | quoted quote body =>
          obtain ⟨inner, back, shape, settled⟩ := ih counted
          exact .inr ⟨inner, back, shape, Settled.quoted_iff.mpr settled⟩
      | plain c =>
          by_cases opens : c = '('
          · subst opens
            obtain ⟨inner, back, shape, settled⟩ := @ih brackets (depth + 1) counted
            exact .inr ⟨inner, back, shape, Settled.opening_iff.mpr settled⟩
          by_cases closes : c = ')'
          · subst closes
            cases depth with
            | zero => exact .inl ⟨rfl, Settled.nil_iff.mpr rfl⟩
            | succ less =>
                simp only [countMarks, CodePoint.char.injEq, Char.reduceEq, if_false, if_true,
                  Nat.add_one_ne_zero, Nat.add_one_sub_one] at counted
                obtain ⟨inner, back, shape, settled⟩ := @ih brackets less counted
                exact .inr ⟨inner, back, shape, Settled.closing_iff.mpr ⟨less, rfl, settled⟩⟩
          · obtain ⟨_, later⟩ := countMarks_plain ⟨opens, closes⟩ counted
            obtain ⟨inner, back, shape, settled⟩ := ih later
            exact .inr ⟨inner, back, shape, (Settled.plain_iff opens closes).mpr settled⟩

/-- With braces for plain characters, a text closes its quotes and its parentheses. -/
def Level (s : Text) : Prop := Settled 0 (Span.scanWith Quote.ofStraight? s)

instance (s : Text) : Decidable (Level s) := inferInstanceAs (Decidable (Settled 0 _))

theorem matchingParenFrom_eq_some {before rest : Text} {n : Nat} :
    matchingParenFrom (before ++ .char '(' :: rest) before.length = some (some ((before.length + 1 + n : Nat) : Int)) ↔
      ∃ inner back : List Span, Span.scanWith Quote.ofStraight? rest = inner ++ .plain ')' :: back ∧ Settled 0 inner ∧
        n = (Span.flatten inner).length := by
  have noQuote : Quote.ofStraight? '(' = none := rfl
  have start : (0 : Int) ≤ before.length := Int.natCast_nonneg _
  have search : matchingParen? (.char '(' :: rest) =
      (closingOffset (0 + 1 : Nat) (Span.scanWith Quote.ofStraight? rest)).map (· + 1) := by
    rw [matchingParen?, Span.scanWith_plain noQuote, closingOffset, if_pos rfl]
    rfl
  rw [matchingParenFrom, if_pos start, Int.toNat_natCast, List.drop_left, search, ← closingOffset_eq_some]
  cases closingOffset (0 + 1 : Nat) (Span.scanWith Quote.ofStraight? rest) with
  | none =>
      change some none = some (some _) ↔ none = some n
      simp only [Option.some.injEq, reduceCtorEq]
  | some found =>
      change some (some (((found + 1 : Nat) : Int) + before.length)) = _ ↔ some found = some n
      simp only [Option.some.injEq]
      omega

/-- The search goes to the end of a text exactly if the text closes its quotes and its parentheses. -/
theorem level_iff {s : Text} (rest : Text) :
    Level s ↔ ∃ inner back : List Span, Span.scanWith Quote.ofStraight? (s ++ .char ')' :: rest) =
      inner ++ .plain ')' :: back ∧
      Settled 0 inner ∧ s.length = (Span.flatten inner).length := by
  constructor
  · intro level
    refine ⟨_, Span.scanWith Quote.ofStraight? rest, ?_, level, ?_⟩
    · rw [Span.scanWith_append Quote.ofStraight?_opening level.closed, Span.scanWith_plain rfl]
    · rw [Span.flatten_scanWith Quote.ofStraight?_opening]
  · rintro ⟨inner, back, read, settled, same⟩
    have whole := congrArg Span.flatten read
    rw [Span.flatten_scanWith Quote.ofStraight?_opening, Span.flatten, List.flatMap_append] at whole
    obtain ⟨rfl, -⟩ := List.append_inj whole same
    have front := Span.scanWith_front Quote.ofStraight?_opening read settled.closed
    rw [Level]
    exact front.symm ▸ settled

/-- Parentheses that are closed outside the spans are closed too when braces are plain characters, if every
braced span is level. -/
theorem Settled.straight {s : Text} (level : ∀ body, .quoted .brace body ∈ Span.scan s → Level body) {depth : Nat}
    (settled : Settled depth (Span.scan s)) : Settled depth (Span.scanWith Quote.ofStraight? s) := by
  induction s using Span.scanWith.induct Quote.of? generalizing depth with
  | case1 =>
      rw [Span.scan, Span.scanWith] at settled
      rwa [Span.scanWith]
  | case2 c s noQuote ih =>
      have straight : Quote.ofStraight? c = none := by rw [Quote.ofStraight?, noQuote]; rfl
      rw [scan_plain noQuote] at settled level
      rw [Span.scanWith_plain straight]
      exact settled.plain_imp fun depth => ih fun body member => level body (List.mem_cons_of_mem _ member)
  | case3 c s quote opens missing =>
      obtain rfl := Quote.of?_eq_some opens
      rw [scan_unclosed missing] at settled
      exact absurd settled not_unclosed
  | case4 c s quote opens body after found ih =>
      obtain rfl := Quote.of?_eq_some opens
      obtain rfl := cut?_append found
      have clear := cut?_before found
      rw [scan_closed clear] at settled level
      have later := ih (fun body member => level body (List.mem_cons_of_mem _ member)) (quoted_iff.mp settled)
      by_cases braced : quote = .brace
      · subst braced
        have inside : Level body := level body List.mem_cons_self
        have behind : Settled depth (.plain '\x7d' :: Span.scanWith Quote.ofStraight? after) :=
          (plain_iff (by decide) (by decide)).mpr later
        have whole := inside.append behind
        rw [Nat.zero_add] at whole
        rw [Span.scanWith_plain rfl, Span.scanWith_append Quote.ofStraight?_opening inside.closed,
          Span.scanWith_plain rfl]
        exact (plain_iff (by decide) (by decide)).mpr whole
      · have straight := Quote.ofStraight?_eq_some.mpr ⟨Quote.of?_opening quote, braced⟩
        rw [Span.scanWith_closed straight clear]
        exact quoted_iff.mpr later

/-- A parenthesis outside the quoted and braced spans of a balanced text has a partner: the first parenthesis behind it,
outside the spans, at which all that have been opened since are closed. The search finds it exactly if the text between
the two is level, as it is if every braced span in it is. -/
theorem matchingParen_agrees {s : Text} {front rest : List Span} (balanced : checkBalance s = .ok ())
    (read : Span.scan s = front ++ .plain '(' :: rest) :
    ∃ inner back : List Span, rest = inner ++ .plain ')' :: back ∧ Pairs (Span.plain '(') (.plain ')') 0 inner ∧
      (matchingParenFrom s (Span.flatten front).length =
          some (some ((Span.flatten (front ++ .plain '(' :: inner)).length : Int)) ↔ Level (Span.flatten inner)) ∧
      ((∀ body, .quoted .brace body ∈ inner → Level body) →
        matchingParenFrom s (Span.flatten front).length =
          some (some ((Span.flatten (front ++ .plain '(' :: inner)).length : Int))) := by
  have counted := counted_balanced balanced
  have marks : ∀ c quote, Quote.of? c = some quote → quote.opening = c := fun _ _ => Quote.of?_eq_some
  have closed : ∀ quote body, Span.unclosed quote body ∉ front := Span.scanWith_closed_before marks read
  rw [read, countMarks_after closed] at counted
  obtain ⟨⟨parens, brackets⟩, -, later⟩ := bind_eq_ok.mp counted
  obtain ⟨inner, back, rfl, settled⟩ := @exists_partner _ parens brackets 0 _ later (Nat.zero_le _)
  have text : s = Span.flatten front ++ .char '(' :: (Span.flatten inner ++ .char ')' :: Span.flatten back) := by
    rw [← Span.flatten_scan s, read]
    simp [Span.flatten, Span.text]
  have place : (Span.flatten (front ++ .plain '(' :: inner)).length =
      (Span.flatten front).length + 1 + (Span.flatten inner).length := by
    simp only [Span.flatten, List.flatMap_append, List.flatMap_cons, Span.text, List.length_append,
      List.length_singleton]
    omega
  have found : matchingParenFrom s (Span.flatten front).length =
      some (some ((Span.flatten (front ++ .plain '(' :: inner)).length : Int)) ↔ Level (Span.flatten inner) := by
    rw [text, place, matchingParenFrom_eq_some, ← level_iff]
  refine ⟨inner, back, rfl, settled.paired, found, fun level => found.mpr ?_⟩
  have alone : Span.scan (Span.flatten inner) = inner := by
    have before : Span.scan s = (front ++ [.plain '(']) ++ (inner ++ .plain ')' :: back) := by simpa using read
    exact Span.scanWith_front marks (Span.scanWith_back marks before (by simpa using closed)) settled.closed
  rw [← alone] at level settled
  exact settled.straight level

/-- Quotes are passed over in both readings; the parentheses of a braced span count, and are closed in it. -/
theorem matchingParen_agrees_braced :
    let s : Text := "f('(' \x7b(a)\x7d) \x7bb\x7d"
    let rest : List Span :=
      [.quoted .single "(", .plain ' ', .quoted .brace "(a)", .plain ')', .plain ' ', .quoted .brace "b"]
    checkBalance s = .ok () ∧ Span.scan s = [Span.plain 'f'] ++ Span.plain '(' :: rest ∧
      ∃ inner back : List Span, rest = inner ++ .plain ')' :: back ∧ Pairs (Span.plain '(') (.plain ')') 0 inner ∧
        matchingParenFrom s 1 =
          some (some ((Span.flatten (Span.plain 'f' :: Span.plain '(' :: inner)).length : Int)) := by
  intro s rest
  have balanced : checkBalance s = .ok () := by decide +kernel
  have read : Span.scan s = [Span.plain 'f'] ++ Span.plain '(' :: rest := by decide +kernel
  obtain ⟨inner, back, shape, paired, -, agrees⟩ := matchingParen_agrees balanced read
  refine ⟨balanced, read, inner, back, shape, paired, agrees fun body member => ?_⟩
  have among : .quoted .brace body ∈ rest := by
    rw [shape]
    exact List.mem_append_left _ member
  simp only [rest, List.mem_cons, List.not_mem_nil, Span.quoted.injEq, reduceCtorEq, true_and, false_and, false_or,
    or_false] at among
  rcases among with rfl | rfl
  · decide +kernel
  · decide +kernel

/-- A parenthesis in braces leads the search astray. One that closes ends it at the place 2 while the partner
stands at 4, and behind one that opens nothing is found. -/
theorem matchingParen_astray :
    let s : Text := "(\x7b)\x7d)"
    let t : Text := "(\x7b(\x7d)"
    (checkBalance s = .ok () ∧ Closed s ∧
      Span.scan s = Span.plain '(' :: ([Span.quoted .brace ")"] ++ [Span.plain ')'])) ∧
      Pairs (Span.plain '(') (.plain ')') 0 [Span.quoted .brace ")"] ∧
      (Span.flatten [Span.plain '(', Span.quoted .brace ")"]).length = 4 ∧ matchingParenFrom s 0 = some (some 2) ∧
      checkBalance t = .ok () ∧ Closed t ∧ matchingParenFrom t 0 = some none := by
  decide +kernel

end Text

end CommandScript
