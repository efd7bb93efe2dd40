import CommandScript.Proofs.Passes.Elements

/-! A text before a parenthesis or a bracket is cut into its own lexemes. One step of the scanner reads a lexeme off the
front, whatever follows the text; only a bracket that is left open would take in what follows. -/

namespace CommandScript

namespace Text

theorem countMarks_brackets {c : CodePoint} {spans : List Span} {parens brackets : Nat} {counts : Nat × Nat}
    (counted : countMarks parens brackets (.plain c :: spans) = .ok counts) :
    (c = '[' ∧ countMarks parens (brackets + 1) spans = .ok counts) ∨
      (c = ']' ∧ ∃ less, brackets = less + 1 ∧ countMarks parens less spans = .ok counts) ∨
      (c ≠ '[' ∧ c ≠ ']' ∧ ∃ parens', countMarks parens' brackets spans = .ok counts) := by
  rw [countMarks] at counted
  by_cases left : c = '['
  · subst left
    exact .inl ⟨rfl, counted⟩
  by_cases right : c = ']'
  · subst right
    cases brackets with
    | zero => cases counted
    | succ less => exact .inr (.inl ⟨rfl, less, rfl, counted⟩)
  · rw [if_neg left, if_neg right] at counted
    refine .inr (.inr ⟨left, right, ?_⟩)
    split at counted
    · exact ⟨_, counted⟩
    split at counted
    · split at counted
      · cases counted
      · exact ⟨_, counted⟩
    · exact ⟨_, counted⟩

/-- A text inside a number of brackets: it closes all of them and all that it opens, and no bracket stands in its
quotes. -/
structure Enclosed (brackets : Nat) (s : Text) : Prop where
  closed : Closed s
  plain : UnquotedBrackets s
  counted : ∃ parens parens', countMarks parens brackets (Span.scan s) = .ok (parens', 0)

namespace Enclosed

variable {brackets : Nat} {s : Text}

theorem of_checkBalance (closed : Closed s) (plain : UnquotedBrackets s) (balanced : checkBalance s = .ok ()) :
    Enclosed 0 s :=
  ⟨closed, plain, 0, 0, counted_balanced balanced⟩

theorem tail {c : CodePoint} (noQuote : Quote.of? c = none) (enclosed : Enclosed brackets (c :: s)) :
    (c = '[' ∧ Enclosed (brackets + 1) s) ∨ (c = ']' ∧ 0 < brackets ∧ Enclosed (brackets - 1) s) ∨
      (c ≠ '[' ∧ c ≠ ']' ∧ Enclosed brackets s) := by
  obtain ⟨closed, plain, parens, parens', counted⟩ := enclosed
  have closedTail := (closed_plain noQuote).mp closed
  have plainTail : UnquotedBrackets s := by
    intro span member
    exact plain span (by rw [scan_plain noQuote]; exact List.mem_cons_of_mem _ member)
  rw [scan_plain noQuote] at counted
  rcases countMarks_brackets counted with ⟨left, later⟩ | ⟨right, less, rfl, later⟩ | ⟨left, right, _, later⟩
  · exact .inl ⟨left, closedTail, plainTail, _, _, later⟩
  · exact .inr (.inl ⟨right, Nat.succ_pos less, closedTail, plainTail, _, _, later⟩)
  · exact .inr (.inr ⟨left, right, closedTail, plainTail, _, _, later⟩)

theorem afterQuote {quote : Quote} {body : Text} (clear : ∀ c ∈ body, c ≠ quote.closing)
    (enclosed : Enclosed brackets (quote.opening :: (body ++ quote.closing :: s))) :
    (.char '[' ∉ (Span.quoted quote body).text ∧ .char ']' ∉ (Span.quoted quote body).text) ∧ Enclosed brackets s := by
  obtain ⟨closed, plain, parens, parens', counted⟩ := enclosed
  rw [scan_closed clear, countMarks] at counted
  refine ⟨plain _ (by rw [scan_closed clear]; exact List.mem_cons_self) rfl, (closed_quoted clear).mp closed,
    ?_, _, _, counted⟩
  intro span member
  exact plain span (by rw [scan_closed clear]; exact List.mem_cons_of_mem _ member)

theorem afterOpening (enclosed : Enclosed 0 (.char '[' :: s)) : Enclosed 1 s := by
  rcases enclosed.tail rfl with ⟨-, deeper⟩ | ⟨other, -⟩ | ⟨other, -⟩
  · exact deeper
  · cases other
  · exact absurd rfl other

theorem afterPlain (name : Text) (unquoted : name.Unquoted) (noBracket : .char '[' ∉ name)
    (enclosed : Enclosed 0 (name ++ s)) :
    Enclosed 0 s := by
  induction name with
  | nil => exact enclosed
  | cons c name ih =>
      simp only [List.mem_cons, not_or] at noBracket
      rcases enclosed.tail (unquoted c List.mem_cons_self) with ⟨same, -⟩ | ⟨-, positive, -⟩ | ⟨-, -, later⟩
      · exact absurd same.symm noBracket.1
      · exact absurd positive (Nat.lt_irrefl 0)
      · exact ih unquoted.tail noBracket.2 later

end Enclosed

end Text

namespace Lexeme

/-- A bracket whose closing mark is in the text is cut off there, whatever follows. -/
def ClosesAt (depth : Nat) (s inner after : Text) : Prop :=
  s = inner ++ .char ']' :: after ∧ ∀ more, cutBracket depth (inner ++ .char ']' :: more) = (inner, more)

theorem ClosesAt.cons {c : CodePoint} {depth : Nat} {s inner after : Text}
    (closes : ClosesAt (if c = '[' then depth + 1 else if c = ']' then depth - 1 else depth) s inner after)
    (inside : ¬(c = ']' ∧ depth = 0)) : ClosesAt depth (c :: s) (c :: inner) after := by
  obtain ⟨rfl, cut⟩ := closes
  refine ⟨rfl, fun more => ?_⟩
  rw [List.cons_append, cutBracket, if_neg inside, cut]

theorem ClosesAt.append {s inner after : Text} (closes : ClosesAt 0 s inner after) (more : Text) :
    cutBracket 0 (s ++ more) = (inner, after ++ more) := by
  obtain ⟨rfl, cut⟩ := closes
  rw [List.append_assoc]
  exact cut (after ++ more)

theorem ClosesAt.cut {s inner after : Text} (closes : ClosesAt 0 s inner after) : cutBracket 0 s = (inner, after) := by
  have alone := closes.append []
  rwa [List.append_nil, List.append_nil] at alone

theorem cutBracket_cases (depth : Nat) (s : Text) :
    (∃ inner after, ClosesAt depth s inner after) ∨ cutBracket depth s = (s, []) := by
  induction s generalizing depth with
  | nil => exact .inr rfl
  | cons c rest ih =>
      by_cases ends : c = ']' ∧ depth = 0
      · obtain ⟨rfl, rfl⟩ := ends
        exact .inl ⟨[], rest, rfl, fun more => by simp [cutBracket]⟩
      rcases ih (if c = '[' then depth + 1 else if c = ']' then depth - 1 else depth) with ⟨inner, after, closes⟩ | all
      · exact .inl ⟨c :: inner, after, closes.cons ends⟩
      · right
        rw [cutBracket, if_neg ends, all]

theorem closesAt_enclosed {depth : Nat} {s : Text} (enclosed : Text.Enclosed (depth + 1) s) :
    ∃ inner after, ClosesAt depth s inner after ∧ Text.Enclosed 0 after := by
  induction s using Span.scanWith.induct Quote.of? generalizing depth with
  | case1 =>
      obtain ⟨-, -, parens, parens', counted⟩ := enclosed
      simp [Span.scan, Span.scanWith, Text.countMarks] at counted
  | case2 c s noQuote ih =>
      rcases enclosed.tail noQuote with ⟨rfl, deeper⟩ | ⟨rfl, -, shallower⟩ | ⟨noLeft, noRight, level⟩
      · obtain ⟨inner, after, closes, later⟩ := ih deeper
        exact ⟨_, after, ClosesAt.cons (by simpa using closes) (by simp), later⟩
      · cases depth with
        | zero => exact ⟨[], s, ⟨rfl, fun more => by simp [cutBracket]⟩, shallower⟩
        | succ depth =>
            obtain ⟨inner, after, closes, later⟩ := ih shallower
            exact ⟨_, after, ClosesAt.cons (by simpa using closes) (by simp), later⟩
      · obtain ⟨inner, after, closes, later⟩ := ih level
        exact ⟨_, after, ClosesAt.cons (by simpa [noLeft, noRight] using closes) (by simp [noRight]), later⟩
  | case3 c s quote opens missing =>
      obtain rfl := Quote.of?_eq_some opens
      refine absurd ?_ (enclosed.closed quote s)
      rw [Text.scan_unclosed missing]
      exact List.mem_singleton.mpr rfl
  | case4 c s quote opens body after found ih =>
      obtain rfl := Quote.of?_eq_some opens
      obtain rfl := Text.cut?_append found
      obtain ⟨unbracketed, later⟩ := enclosed.afterQuote (Text.cut?_before found)
      obtain ⟨inner, rest, ⟨rfl, cut⟩, last⟩ := ih later
      refine ⟨(Span.quoted quote body).text ++ inner, rest, ⟨by simp [Span.text], fun more => ?_⟩, last⟩
      rw [List.append_assoc, cutBracket_skip unbracketed, cut]

theorem bracket_cases (rest : Text) :
    (∃ inner after, ClosesAt 0 rest inner after ∧ (Text.Enclosed 1 rest → Text.Enclosed 0 after)) ∨
      (cutBracket 0 rest = (rest, []) ∧ ¬Text.Enclosed 1 rest) := by
  rcases cutBracket_cases 0 rest with ⟨inner, after, closes⟩ | all
  · refine .inl ⟨inner, after, closes, fun enclosed => ?_⟩
    obtain ⟨inner', after', closes', later⟩ := closesAt_enclosed enclosed
    obtain ⟨-, rfl⟩ := Prod.mk.inj (closes.cut.symm.trans closes'.cut)
    exact later
  · refine .inr ⟨all, fun enclosed => ?_⟩
    obtain ⟨inner, after, closes, -⟩ := closesAt_enclosed enclosed
    obtain ⟨same, -⟩ := Prod.mk.inj (closes.cut.symm.trans all)
    have whole := congrArg List.length closes.1
    rw [same, List.length_append, List.length_cons] at whole
    omega

/-- Marks that end a term and are no part of a longer operator. -/
def Stops (mark : CodePoint) : Prop := mark = '(' ∨ mark = ')' ∨ mark = '['

namespace Stops

variable {mark : CodePoint} (stops : Stops mark)

include stops

theorem noPair (c : CodePoint) : Operator.ofPair? c mark = none := by
  rcases stops with rfl | rfl | rfl
  all_goals
    unfold Operator.ofPair?
    split
    all_goals first | rfl | contradiction

/-- A term ends before the mark, also after an exponent that still wants its digits. -/
theorem cutTerm (older last : CodePoint) (s tail : Text) :
    cutTerm older last (s ++ mark :: tail) = ((cutTerm older last s).1, (cutTerm older last s).2 ++ mark :: tail) := by
  have ends : endsTerm mark = true := by rcases stops with rfl | rfl | rfl <;> rfl
  have noDigit : Text.isDigitChar mark = false := by rcases stops with rfl | rfl | rfl <;> rfl
  have noSign : (mark = '+' || mark = '-') = false := by rcases stops with rfl | rfl | rfl <;> rfl
  induction s generalizing older last with
  | nil => simp [Lexeme.cutTerm, isExponentSign, noSign, ends]
  | cons c rest ih =>
      have sign : isExponentSign older last c (rest ++ mark :: tail) = isExponentSign older last c rest := by
        cases rest with
        | nil => simp [isExponentSign, noDigit]
        | cons next more => rfl
      rw [List.cons_append, Lexeme.cutTerm, Lexeme.cutTerm, sign]
      split
      · rfl
      · rw [ih last c]

theorem notMem_cutTerm (older last : CodePoint) (s : Text) : mark ∉ (Lexeme.cutTerm older last s).1 := by
  have ends : endsTerm mark = true := by rcases stops with rfl | rfl | rfl <;> rfl
  have noSign : (mark = '+' || mark = '-') = false := by rcases stops with rfl | rfl | rfl <;> rfl
  induction s generalizing older last with
  | nil => simp [Lexeme.cutTerm]
  | cons c rest ih =>
      rw [Lexeme.cutTerm]
      split
      · simp
      · rename_i goesOn
        intro member
        rcases List.mem_cons.mp member with rfl | later
        · exact goesOn (by simp [isExponentSign, noSign, ends])
        · exact ih last c later

theorem noPair_append {c : CodePoint} {rest : Text} (alone : rest.head?.bind (Operator.ofPair? c) = none)
    (tail : Text) :
    (rest ++ mark :: tail).head?.bind (Operator.ofPair? c) = none := by
  cases rest with
  | nil => exact stops.noPair c
  | cons next more => exact alone

end Stops

/-- What the scanner does at the start of a text that a mark follows. -/
inductive Step (mark : CodePoint) (s : Text) : Prop
  | reads (lexemes : List Lexeme) (after : Text) : after.length < s.length →
      scan s = (scan after).map (lexemes ++ ·) →
      (∀ tail, scan (s ++ mark :: tail) = (scan (after ++ mark :: tail)).map (lexemes ++ ·)) →
      (Text.Enclosed 0 s → Text.Enclosed 0 after) → Step mark s
  | leftOpen (lexeme : Lexeme) : scan s = .ok [lexeme] → lexeme.inside?.isSome = true → ¬Text.Enclosed 0 s → Step mark s
  | indexed (name : Text) : scan s = .ok [term name none] → mark = '[' → Step mark s
  | refused (error : Malformed) : scan s = .error error →
      (Text.Enclosed 0 s → ∀ tail, ∃ other, scan (s ++ mark :: tail) = .error other) → Step mark s

namespace Step

variable {mark : CodePoint} {c : CodePoint} {rest : Text}

theorem white (blank : Text.isBlank c = true) : Step mark (c :: rest) := by
  refine .reads [] rest (by simp) ?_ (fun tail => ?_) fun enclosed => ?_
  · rw [scan_white blank]
    cases scan rest <;> rfl
  · rw [List.cons_append, scan_white blank]
    cases scan (rest ++ mark :: tail) <;> rfl
  · refine Text.Enclosed.afterPlain [c] (by simpa [Text.Unquoted] using blank_unquoted blank) ?_ enclosed
    rw [List.mem_singleton]
    rintro rfl
    exact absurd blank (by decide)

theorem pair (visible : Text.isBlank c = false) {next : CodePoint} {op : Operator}
    (pair : Operator.ofPair? c next = some op) : Step mark (c :: next :: rest) := by
  obtain ⟨noQuote, noQuote'⟩ := Operator.ofPair?_unquoted pair
  have unbracketed : .char '[' ∉ [c, next] := by
    unfold Operator.ofPair? at pair
    split at pair
    all_goals first | decide | cases pair
  refine .reads [.operator op [c, next]] rest ?_ (scan_pair visible pair rest)
    (fun tail => scan_pair visible pair _) fun enclosed => ?_
  · simp only [List.length_cons]
    omega
  · exact Text.Enclosed.afterPlain [c, next] (by simp [Text.Unquoted, noQuote, noQuote']) unbracketed enclosed

theorem operator {op : Operator} (stops : Stops mark) (visible : Text.isBlank c = false) (noQuote : Quote.of? c = none)
    (noBracket : c ≠ '[') (found : Operator.ofChar? c = some op)
    (alone : rest.head?.bind (Operator.ofPair? c) = none) : Step mark (c :: rest) := by
  refine .reads [.operator op [c]] rest (by simp) (scan_mark visible noQuote noBracket found alone)
    (fun tail => scan_mark visible noQuote noBracket found (stops.noPair_append alone tail)) fun enclosed => ?_
  refine Text.Enclosed.afterPlain [c] (by simpa [Text.Unquoted] using noQuote) ?_ enclosed
  simpa using noBracket.symm

theorem quote {quote : Quote} : Step mark (quote.opening :: rest) := by
  cases found : Text.cut? quote.closing rest with
  | none =>
      refine .refused (.unclosedQuote quote) ?_ fun enclosed => ?_
      · exact scan_unclosed found
      · refine absurd ?_ (enclosed.closed quote rest)
        rw [Text.scan_unclosed found]
        exact List.mem_singleton.mpr rfl
  | some cut =>
      obtain ⟨body, after⟩ := cut
      obtain rfl := Text.cut?_append found
      have clear := Text.cut?_before found
      refine .reads [quoted body] after (by simp; omega) (scan_quoted clear after) (fun tail => ?_) fun enclosed => ?_
      · have scanned := scan_quoted clear (after ++ mark :: tail)
        simpa using scanned
      · exact (enclosed.afterQuote clear).2

theorem ofBracket {s : Text} (make : Text → Lexeme) (value : ∀ inner, (make inner).inside?.isSome = true)
    (shorter : rest.length ≤ s.length) (inside : Text.Enclosed 0 s → Text.Enclosed 1 rest)
    (here : scan s = scanInside make rest)
    (appended : ∀ tail, scan (s ++ mark :: tail) = scanInside make (rest ++ mark :: tail)) : Step mark s := by
  unfold scanInside at here appended
  rcases bracket_cases rest with ⟨inner, after, closes, later⟩ | ⟨all, noEnd⟩
  · simp only [closes.cut] at here
    simp only [closes.append] at appended
    by_cases blank : Text.trim inner = []
    · rw [if_pos blank] at here
      exact .refused _ here fun _ tail => ⟨_, (appended tail).trans (if_pos blank)⟩
    · rw [if_neg blank] at here
      refine .reads [make inner] after ?_ here (fun tail => (appended tail).trans (if_neg blank))
        fun enclosed => later (inside enclosed)
      have whole := congrArg List.length closes.1
      rw [List.length_append, List.length_cons] at whole
      omega
  · simp only [all] at here
    by_cases blank : Text.trim rest = []
    · rw [if_pos blank] at here
      exact .refused _ here fun enclosed => absurd (inside enclosed) noEnd
    · rw [if_neg blank, scan] at here
      exact .leftOpen _ here (value rest) fun enclosed => noEnd (inside enclosed)

theorem bracket : Step mark (.char '[' :: rest) :=
  ofBracket Lexeme.bracket (fun _ => rfl) (by simp) (fun enclosed => enclosed.afterOpening) (scan_bracket rest)
    fun tail => scan_bracket (rest ++ mark :: tail)

theorem term (stops : Stops mark) (starts : StartsTerm c) : Step mark (c :: rest) := by
  obtain ⟨unquoted, whole⟩ := cutTerm_whole ' ' c rest
  have unbracketed := Stops.notMem_cutTerm (.inr (.inr rfl) : Stops '[') ' ' c rest
  have appended (tail : Text) := stops.cutTerm ' ' c rest tail
  obtain ⟨name, after, cut⟩ : ∃ name after, cutTerm ' ' c rest = (name, after) := ⟨_, _, rfl⟩
  simp only [cut] at unquoted whole unbracketed appended
  have inside (enclosed : Text.Enclosed 0 (c :: rest)) : Text.Enclosed 0 after := by
    rw [whole] at enclosed
    refine Text.Enclosed.afterPlain (c :: name) ?_ ?_ enclosed
    · exact List.forall_mem_cons.mpr ⟨starts.noQuote, unquoted⟩
    · simpa using ⟨starts.noBracket.symm, unbracketed⟩
  have shorter : after.length < (c :: rest).length := by
    rw [whole, List.length_cons, List.length_append]
    omega
  by_cases noIndex : ∀ more, after ≠ .char '[' :: more
  · have here := starts.scan cut noIndex
    by_cases left : after = [] ∧ mark = '['
    · obtain ⟨rfl, rfl⟩ := left
      rw [Lexeme.scan] at here
      exact .indexed _ here rfl
    · refine .reads [.term (Text.trim (c :: name)) none] after shorter here (fun tail => ?_) inside
      refine starts.scan (appended tail) fun more same => ?_
      cases after with
      | nil => exact left ⟨rfl, (List.cons.inj same).1⟩
      | cons first others => exact noIndex others (congrArg (· :: others) (List.cons.inj same).1)
  · obtain ⟨more, rfl⟩ : ∃ more, after = .char '[' :: more := by simpa using noIndex
    refine ofBracket (fun inner => .term (Text.trim (c :: name)) (some inner)) (fun _ => rfl) ?_
      (fun enclosed => (inside enclosed).afterOpening) (starts.scan_index cut) fun tail =>
        starts.scan_index (appended tail)
    rw [List.length_cons] at shorter
    omega

theorem exists_step (stops : Stops mark) (c : CodePoint) (rest : Text) : Step mark (c :: rest) := by
  by_cases blank : Text.isBlank c = true
  · exact white blank
  rw [Bool.not_eq_true] at blank
  cases paired : rest.head?.bind (Operator.ofPair? c) with
  | some op =>
      cases rest with
      | nil => cases paired
      | cons next more => exact pair blank paired
  | none =>
      cases opens : Quote.of? c with
      | some quote =>
          obtain rfl := Quote.of?_eq_some opens
          exact Step.quote
      | none =>
          by_cases left : c = '['
          · subst left
            exact bracket
          cases found : Operator.ofChar? c with
          | some op => exact operator stops blank opens left found paired
          | none => exact term stops ⟨blank, opens, left, found⟩

end Step

section

variable {mark : CodePoint} (stops : Stops mark) {s : Text} {lexemes : List Lexeme}

include stops

/-- The lexemes of a text stay the same when a mark follows it, unless the text ends in a bracket that is left open, or
in a term that takes the mark for the start of its index. -/
theorem scan_append (scanned : scan s = .ok lexemes)
    (shut : (∀ last ∈ lexemes.getLast?, last.inside? = none) ∨ Text.Enclosed 0 s)
    (noIndex : mark = '[' → ∀ last ∈ lexemes.getLast?, last.operator?.isSome = true) (tail : Text) :
    scan (s ++ mark :: tail) = (scan (mark :: tail)).map (lexemes ++ ·) := by
  -- on the length, since one step of the scan may take any number of characters
  induction size : s.length using Nat.strongRecOn generalizing s lexemes with
  | ind size ih =>
      cases s with
      | nil =>
          rw [scan] at scanned
          cases scanned
          rw [List.nil_append]
          cases scan (mark :: tail) <;> rfl
      | cons c rest =>
          cases Step.exists_step stops c rest with
          | reads found after shorter here appended enclosed =>
              rw [here] at scanned
              cases later : scan after with
              | error error =>
                  rw [later] at scanned
                  cases scanned
              | ok others =>
                  rw [later] at scanned
                  obtain rfl := Except.ok.inj scanned
                  have ends : ∀ last ∈ others.getLast?, last ∈ (found ++ others).getLast? := by
                    intro last member
                    rw [List.getLast?_append, Option.mem_def.mp member]
                    rfl
                  have inner := ih after.length (by omega) later
                    (shut.imp (fun values last member => values last (ends last member)) enclosed)
                    (fun same last member => noIndex same last (ends last member)) rfl
                  rw [appended, inner]
                  cases scan (mark :: tail) <;> simp [Except.map]
          | leftOpen lexeme here value open_ =>
              obtain rfl := Except.ok.inj (here.symm.trans scanned)
              rcases shut with values | enclosed
              · have none := values lexeme rfl
                rw [none] at value
                cases value
              · exact absurd enclosed open_
          | indexed name here same =>
              obtain rfl := Except.ok.inj (here.symm.trans scanned)
              cases noIndex same _ rfl
          | refused error here =>
              rw [here] at scanned
              cases scanned

/-- A text that closes its brackets is refused whatever follows it, if it is refused by itself. -/
theorem scan_append_refused {error : Malformed} (refused : scan s = .error error) (enclosed : Text.Enclosed 0 s)
    (tail : Text) : ∃ other, scan (s ++ mark :: tail) = .error other := by
  induction size : s.length using Nat.strongRecOn generalizing s error with
  | ind size ih =>
      cases s with
      | nil =>
          rw [scan] at refused
          cases refused
      | cons c rest =>
          cases Step.exists_step stops c rest with
          | reads found after shorter here appended inside =>
              rw [here] at refused
              cases later : scan after with
              | ok others =>
                  rw [later] at refused
                  cases refused
              | error first =>
                  obtain ⟨other, inner⟩ := ih after.length (by omega) later (inside enclosed) rfl
                  exact ⟨other, by rw [appended, inner]; rfl⟩
          | leftOpen lexeme here value open_ => exact absurd enclosed open_
          | indexed name here same =>
              rw [here] at refused
              cases refused
          | refused first here others => exact others enclosed tail

end

end Lexeme

end CommandScript
