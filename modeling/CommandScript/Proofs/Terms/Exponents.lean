import CommandScript.Command.Names
import CommandScript.Proofs.Integers.Marking
import CommandScript.Proofs.Passes.References

/-! Signs inside of terms. A sign and a digit belong to the term before them if the term ends like a mantissa with the
mark of an exponent. The scanner does not ask where the term began, so the same holds of names. -/

namespace CommandScript

namespace Text

/-- A character that means nothing to the scanners. -/
structure Neutral (c : CodePoint) : Prop where
  visible : isBlank c = false
  noOperator : Operator.ofChar? c = none
  noQuote : Quote.of? c = none
  uncounted : Uncounted c

theorem Neutral.starts {c : CodePoint} (neutral : Neutral c) : Lexeme.StartsTerm c where
  visible := neutral.visible
  noQuote := neutral.noQuote
  noBracket := neutral.uncounted.2.2.1
  noOperator := neutral.noOperator

theorem Neutral.of_dotted {c : CodePoint} (dotted : isDottedNameChar c = true) : Neutral c := by
  obtain ⟨visible, noOperator, noQuote, uncounted⟩ := dotted_neutral dotted
  exact ⟨visible, noOperator, noQuote, uncounted⟩

theorem Neutral.of_decimal {c : CodePoint} (decimal : isDecimal c = true) : Neutral c := by
  have visible : isBlank c = false := by
    refine Bool.eq_false_iff.mpr fun blank => ?_
    have noDigit : isDecimal c = false :=
      blank_forall (p := fun c => isDecimal c = false) (by decide +kernel) (by decide +kernel) blank
    rw [noDigit] at decimal
    cases decimal
  by_cases ascii : c.toNat < 128
  · obtain ⟨noOperator, noQuote, uncounted⟩ := ascii_forall (p := fun c => isDecimal c = true →
      Operator.ofChar? c = none ∧ Quote.of? c = none ∧ Uncounted c) (by decide +kernel) ascii decimal
    exact ⟨visible, noOperator, noQuote, uncounted⟩
  · obtain ⟨noOperator, noQuote, uncounted⟩ := foreign_neutral ascii
    exact ⟨visible, noOperator, noQuote, uncounted⟩

theorem Neutral.endsTerm {c : CodePoint} (neutral : Neutral c) : Lexeme.endsTerm c = false := by
  have noBracket : c ≠ '[' := neutral.uncounted.2.2.1
  simp [Lexeme.endsTerm, neutral.noOperator, Quote.isOpening, neutral.noQuote, noBracket]

theorem trim_neutral {s : Text} (neutral : ∀ c ∈ s, Neutral c) : trim s = s :=
  trim_visible (fun c member => (neutral c (List.mem_of_mem_head? member)).visible)
    (fun c member => (neutral c (List.mem_of_mem_getLast? member)).visible)

/-- The text ends like a mantissa and the mark of an exponent. -/
def endsInExponent (s : Text) : Bool :=
  match s.reverse with
  | last :: older :: _ => (last = 'e' || last = 'E') && (isDigitChar older || older = '.')
  | _ => false

end Text

theorem Names.characters_of_checkAssigned {name : Text} (accepted : checkAssigned name = .ok ()) :
    name ≠ [] ∧ ∀ c ∈ name, Text.isNameChar c = true := by
  unfold checkAssigned at accepted
  split at accepted
  · cases accepted
  · rename_i first head
    split at accepted
    · cases accepted
    · rename_i noBad
      constructor
      · rintro rfl
        cases head
      · intro c member
        simpa using List.find?_eq_none.mp noBad c member

namespace Lexeme

/-- Characters that mean nothing are cut off with what follows them, which sees the last two of them. -/
theorem cutTerm_neutral {older last : CodePoint} {s : Text} (neutral : ∀ c ∈ s, Text.Neutral c) :
    ∃ older' last' more, s.reverse ++ [last, older] = last' :: older' :: more ∧
      ∀ rest, cutTerm older last (s ++ rest) = (s ++ (cutTerm older' last' rest).1, (cutTerm older' last' rest).2) := by
  induction s generalizing older last with
  | nil => exact ⟨older, last, [], rfl, fun rest => rfl⟩
  | cons c s ih =>
      obtain ⟨older', last', more, ends, inner⟩ := @ih last c fun other member => neutral other (by simp [member])
      refine ⟨older', last', more ++ [older], ?_, fun rest => ?_⟩
      · have shifted := congrArg (· ++ [older]) ends
        simpa using shifted
      · have plain := (neutral c (by simp)).endsTerm
        simp [cutTerm, plain, inner]

theorem cutTerm_alone {older last : CodePoint} {s : Text} (neutral : ∀ c ∈ s, Text.Neutral c) :
    cutTerm older last s = (s, []) := by
  obtain ⟨older', last', more, -, cut⟩ := @cutTerm_neutral older last s neutral
  have whole := cut []
  rwa [List.append_nil, cutTerm, List.append_nil] at whole

/-- A sign before digits is cut off with the characters before it exactly if they end like a mantissa and the mark of
an exponent. -/
theorem cutTerm_sign {c : CodePoint} {front digits : Text} (neutral : ∀ c ∈ front, Text.Neutral c)
    (filled : digits ≠ []) (decimal : ∀ c ∈ digits, Text.isDecimal c = true) (sign : Sign) :
    cutTerm ' ' c (front ++ (sign.op.text ++ digits)) =
      if Text.endsInExponent (c :: front) then (front ++ (sign.op.text ++ digits), [])
      else (front, sign.op.text ++ digits) := by
  obtain ⟨older, last, more, ends, cut⟩ := @cutTerm_neutral ' ' c front neutral
  obtain ⟨digit, others, rfl⟩ := List.exists_cons_of_ne_nil filled
  have digitChar : Text.isDigitChar digit = true := by simp [Text.isDigitChar, decimal digit]
  have blank : Text.isDigitChar ' ' = false := by decide
  -- the cut looks at the last two characters alone, and so does the test
  have marked : Text.endsInExponent (c :: front) =
      ((last = 'e' || last = 'E') && (Text.isDigitChar older || older = '.')) := by
    rw [Text.endsInExponent, List.reverse_cons]
    rcases backward : front.reverse with _ | ⟨a, _ | ⟨b, tail⟩⟩
    · rw [backward] at ends
      obtain ⟨rfl, rfl, -⟩ := by simpa using ends
      simp [blank]
    · rw [backward] at ends
      obtain ⟨rfl, rfl, -⟩ := by simpa using ends
      rfl
    · rw [backward] at ends
      obtain ⟨rfl, rfl, -⟩ := by simpa using ends
      rfl
  have masked : ∃ mark, sign.op.text = [mark] ∧ endsTerm mark = true ∧
      isExponentSign older last mark (digit :: others) = Text.endsInExponent (c :: front) := by
    cases sign
    · exact ⟨'+', rfl, by decide, by simp [isExponentSign, marked, digitChar]⟩
    · exact ⟨'-', rfl, by decide, by simp [isExponentSign, marked, digitChar]⟩
  obtain ⟨mark, spelled, stops, isSign⟩ := masked
  have rest := @cutTerm_alone last mark (digit :: others) fun c member => .of_decimal (decimal c member)
  rw [cut, spelled, List.singleton_append, cutTerm]
  cases found : Text.endsInExponent (c :: front) with
  | true =>
      rw [found] at isSign
      simp [isSign, rest]
  | false =>
      rw [found] at isSign
      simp [isSign, stops]

theorem scan_digits {digits : Text} (filled : digits ≠ []) (neutral : ∀ c ∈ digits, Text.Neutral c) :
    scan digits = .ok [term digits none] := by
  obtain ⟨c, more, rfl⟩ := List.exists_cons_of_ne_nil filled
  have whole := @cutTerm_alone ' ' c more fun other member => neutral other (by simp [member])
  rw [(neutral c (by simp)).starts.scan whole nofun, Text.trim_neutral neutral, scan]
  rfl

/-- A sign between a text without a meaning and digits is an operator, or stands in one term with them. -/
theorem scan_signed {front digits : Text} (filled : front ≠ []) (neutral : ∀ c ∈ front, Text.Neutral c)
    (digitsFilled : digits ≠ []) (decimal : ∀ c ∈ digits, Text.isDecimal c = true) (sign : Sign) :
    scan (front ++ (sign.op.text ++ digits)) =
      .ok (if Text.endsInExponent front then [term (front ++ (sign.op.text ++ digits)) none]
        else [term front none, sign.lexeme, term digits none]) := by
  obtain ⟨c, more, rfl⟩ := List.exists_cons_of_ne_nil filled
  have cut := @cutTerm_sign c more digits (fun c member => neutral c (by simp [member])) digitsFilled decimal sign
  have first := neutral c (by simp)
  cases masked : Text.endsInExponent (c :: more) with
  | true =>
      rw [masked] at cut
      have trimmed : Text.trim (c :: more ++ (sign.op.text ++ digits)) = c :: more ++ (sign.op.text ++ digits) := by
        refine Text.trim_visible ?_ fun last found => ?_
        · rintro _ ⟨⟩
          exact first.visible
        · rw [← List.append_assoc, List.getLast?_append_of_ne_nil _ digitsFilled] at found
          exact (Text.Neutral.of_decimal (decimal last (List.mem_of_mem_getLast? found))).visible
      rw [List.cons_append] at trimmed ⊢
      rw [first.starts.scan cut (by simp), trimmed, scan]
      rfl
  | false =>
      rw [masked] at cut
      have operator : scan (sign.op.text ++ digits) = (scan digits).map (sign.lexeme :: ·) := by
        obtain ⟨digit, others, rfl⟩ := List.exists_cons_of_ne_nil digitsFilled
        cases sign
        · exact scan_mark (by decide) (by decide) (by decide) rfl rfl
        · exact scan_mark (by decide) (by decide) (by decide) rfl rfl
      rw [List.cons_append, first.starts.scan cut (by intro _ same; cases sign <;> cases same),
        Text.trim_neutral neutral, operator, scan_digits digitsFilled fun c member => .of_decimal (decimal c member)]
      rfl

end Lexeme

namespace Number

theorem parseExponent_shape {s : Text} (read : (parseExponent s).isSome = true) :
    s = [] ∨ ∃ mark rest, s = mark :: rest ∧ (mark = 'e' ∨ mark = 'E') ∧
      (cutSign rest).2 ≠ [] ∧ (cutSign rest).2.all Text.isDecimal = true := by
  cases s with
  | nil => exact .inl rfl
  | cons mark rest =>
      right
      by_cases marks : mark = 'e' ∨ mark = 'E'
      · rw [parseExponent, if_pos marks] at read
        have digits : (cutSign rest).2 ≠ [] ∧ (cutSign rest).2.all Text.isDecimal = true := by simpa using read
        exact ⟨mark, rest, rfl, marks, digits⟩
      · rw [parseExponent, if_neg marks] at read
        cases read

/-- A literal without a sign is a mantissa of digits and points, and perhaps the mark of an exponent with a number. -/
theorem unsigned_shape {s : Text} (number : isNumber s = true) (trimmed : Text.trim s = s)
    (unsigned : ∀ c ∈ s.head?, c ≠ '+' ∧ c ≠ '-') :
    ∃ mantissa exponent, s = mantissa ++ exponent ∧ mantissa ≠ [] ∧
      (∀ c ∈ mantissa, Text.isDecimal c = true ∨ c = '.') ∧
      (exponent = [] ∨ ∃ mark rest, exponent = mark :: rest ∧ (mark = 'e' ∨ mark = 'E') ∧
        (cutSign rest).2 ≠ [] ∧ (cutSign rest).2.all Text.isDecimal = true) := by
  have noSign : cutSign s = (false, s) := by
    unfold cutSign
    split
    · exact absurd rfl (unsigned _ rfl).2
    · exact absurd rfl (unsigned _ rfl).1
    · rfl
  have digits (t : Text) : ∀ c ∈ (cutDigits t).1, Text.isDecimal c = true :=
    fun c member => List.mem_takeWhile_imp member
  have whole (t : Text) : t = (cutDigits t).1 ++ (cutDigits t).2 := List.takeWhile_append_dropWhile.symm
  unfold isNumber parseDecimal at number
  rw [trimmed, noSign] at number
  simp only at number
  have front := whole s
  split at number
  · rename_i more pointed
    have back := whole more
    obtain ⟨filled, read⟩ : ((cutDigits s).1 ≠ [] ∨ (cutDigits more).1 ≠ []) ∧
        (parseExponent (cutDigits more).2).isSome = true := by
      by_cases filled : (cutDigits s).1 ≠ [] ∨ (cutDigits more).1 ≠ []
      · refine ⟨filled, ?_⟩
        cases known : parseExponent (cutDigits more).2 with
        | none => simp [filled, known, guard] at number
        | some _ => rfl
      · simp [filled, guard, failure] at number
    refine ⟨(cutDigits s).1 ++ .char '.' :: (cutDigits more).1, (cutDigits more).2, ?_, by simp, ?_,
      parseExponent_shape read⟩
    · rw [List.append_assoc, List.cons_append, ← back, ← pointed, ← front]
    · intro c member
      simp only [List.mem_append, List.mem_cons] at member
      rcases member with digit | rfl | digit
      · exact .inl (digits s c digit)
      · exact .inr rfl
      · exact .inl (digits more c digit)
  · obtain ⟨filled, read⟩ : (cutDigits s).1 ≠ [] ∧ (parseExponent (cutDigits s).2).isSome = true := by
      by_cases filled : (cutDigits s).1 ≠ []
      · refine ⟨filled, ?_⟩
        cases known : parseExponent (cutDigits s).2 with
        | none => simp [filled, known, guard] at number
        | some _ => rfl
      · simp [filled, guard, failure] at number
    exact ⟨(cutDigits s).1, (cutDigits s).2, front, filled, fun c member => .inl (digits s c member),
      parseExponent_shape read⟩

end Number

namespace Token

theorem tokenize_term {s : Text} (unquoted : s.Unquoted) (uncounted : ∀ c ∈ s, Text.Uncounted c) {text : Text}
    (scanned : Lexeme.scan s = .ok [.term text none]) : tokenize s = .ok [{ lexeme := .term text none }] := by
  have balanced := Text.checkBalance_unquoted unquoted (Text.countMarks_uncounted uncounted)
  simp only [tokenize, balanced, scanned, bind, Except.bind]
  rfl

theorem sign_plain (sign : Sign) : ∀ c ∈ sign.op.text, Quote.of? c = none ∧ Text.Uncounted c := by
  cases sign <;> exact List.forall_mem_singleton.mpr (by decide)

theorem signed_plain {front digits : Text} (neutral : ∀ c ∈ front, Text.Neutral c)
    (decimal : ∀ c ∈ digits, Text.isDecimal c = true) (sign : Sign) :
    ∀ c ∈ front ++ (sign.op.text ++ digits), Quote.of? c = none ∧ Text.Uncounted c := by
  intro c member
  rcases List.mem_append.mp member with inside | inside
  · exact ⟨(neutral c inside).noQuote, (neutral c inside).uncounted⟩
  rcases List.mem_append.mp inside with inside | inside
  · exact sign_plain sign c inside
  · have digit := Text.Neutral.of_decimal (decimal c inside)
    exact ⟨digit.noQuote, digit.uncounted⟩

theorem tokenize_literal {literal : Text} (number : Number.isNumber literal = true)
    (trimmed : Text.trim literal = literal)
    (unsigned : ∀ c ∈ literal.head?, c ≠ '+' ∧ c ≠ '-') :
    tokenize literal = .ok [{ lexeme := .term literal none }] := by
  obtain ⟨mantissa, exponent, rfl, filled, marks, exponent_cases⟩ := Number.unsigned_shape number trimmed unsigned
  have point : Text.Neutral '.' := .of_dotted (by decide)
  have mantissa_neutral : ∀ c ∈ mantissa, Text.Neutral c := by
    intro c member
    rcases marks c member with digit | rfl
    · exact .of_decimal digit
    · exact point
  have unmarked {s : Text} (sFilled : s ≠ []) (neutral : ∀ c ∈ s, Text.Neutral c) :
      tokenize s = .ok [{ lexeme := .term s none }] :=
    tokenize_term (fun c member => (neutral c member).noQuote) (fun c member => (neutral c member).uncounted)
      (Lexeme.scan_digits sFilled neutral)
  rcases exponent_cases with rfl | ⟨mark, rest, rfl, isMark, digitsFilled, digits⟩
  · rw [List.append_nil]
    exact unmarked filled mantissa_neutral
  have mark_neutral : Text.Neutral mark := by rcases isMark with rfl | rfl <;> exact .of_dotted (by decide)
  have front_neutral : ∀ c ∈ mantissa ++ [mark], Text.Neutral c := by
    intro c member
    rcases List.mem_append.mp member with inside | inside
    · exact mantissa_neutral c inside
    · rw [List.mem_singleton.mp inside]
      exact mark_neutral
  -- a sign in the exponent would be an operator anywhere else, so this case needs the mantissa
  have signed (sign : Sign) {s : Text} (sFilled : s ≠ []) (decimal : s.all Text.isDecimal = true) :
      tokenize (mantissa ++ mark :: (sign.op.text ++ s)) =
        .ok [{ lexeme := .term (mantissa ++ mark :: (sign.op.text ++ s)) none }] := by
    have decimals := List.all_eq_true.mp decimal
    have plain := signed_plain front_neutral decimals sign
    have scanned := Lexeme.scan_signed (by simp) front_neutral sFilled decimals sign
    have ends : Text.endsInExponent (mantissa ++ [mark]) = true := by
      obtain ⟨front, last, rfl⟩ := List.eq_nil_or_concat mantissa |>.resolve_left filled
      have lastMark := marks last (by simp)
      rw [Text.endsInExponent]
      rcases isMark with rfl | rfl <;> rcases lastMark with digit | rfl <;> simp [Text.isDigitChar, *]
    rw [ends, if_pos rfl] at scanned
    rw [List.append_cons]
    exact tokenize_term (fun c member => (plain c member).1) (fun c member => (plain c member).2) scanned
  unfold Number.cutSign at digitsFilled digits
  split at digits
  · exact signed .minus digitsFilled digits
  · exact signed .plus digitsFilled digits
  · rw [List.append_cons]
    refine unmarked (by simp) fun c member => ?_
    rcases List.mem_append.mp member with inside | inside
    · exact front_neutral c inside
    · exact .of_decimal (List.all_eq_true.mp digits c inside)

/-- A name, a sign and digits are three tokens, unless the name ends like a mantissa with the mark of an exponent: then
they are one term. A literal without a sign in front of it is one term, whether or not its exponent has a sign. -/
theorem tokenize_masked_sign (name digits literal : Text) (sign : Sign) :
    (Names.checkAssigned name = .ok () → digits ≠ [] → (∀ c ∈ digits, Text.isDecimal c = true) →
      tokenize (name ++ sign.op.text ++ digits) =
        .ok (if Text.endsInExponent name then [{ lexeme := .term (name ++ sign.op.text ++ digits) none }]
          else [{ lexeme := .term name none }, { lexeme := .operator (.binary sign.op) sign.op.text },
            { lexeme := .term digits none }])) ∧
    (Number.isNumber literal = true → Text.trim literal = literal → (∀ c ∈ literal.head?, c ≠ '+' ∧ c ≠ '-') →
      tokenize literal = .ok [{ lexeme := .term literal none }]) := by
  constructor
  · intro accepted digitsFilled decimal
    obtain ⟨filled, named⟩ := Names.characters_of_checkAssigned accepted
    have neutral : ∀ c ∈ name, Text.Neutral c := by
      intro c member
      have dotted : Text.isDottedNameChar c = true := by rw [Text.isDottedNameChar, named c member, Bool.true_or]
      exact .of_dotted dotted
    have plain := signed_plain neutral decimal sign
    have scanned := Lexeme.scan_signed filled neutral digitsFilled decimal sign
    rw [List.append_assoc]
    cases masked : Text.endsInExponent name with
    | true =>
        rw [masked, if_pos rfl] at scanned
        exact tokenize_term (fun c member => (plain c member).1) (fun c member => (plain c member).2) scanned
    | false =>
        rw [masked] at scanned
        have counted := Text.countMarks_uncounted fun c member => (plain c member).2
        have balanced := Text.checkBalance_unquoted (fun c member => (plain c member).1) counted
        simp only [tokenize, balanced, scanned, bind, Except.bind]
        cases sign <;> rfl
  · intro number trimmed unsigned
    exact tokenize_literal number trimmed unsigned

/-- `x1e-5` is one term and `x1-5` is a difference; `1.5e-10` is one term. -/
theorem tokenize_masked_sign_names :
    tokenize "x1e-5" = .ok [{ lexeme := .term "x1e-5" none }] ∧
      tokenize "x1-5" = .ok [{ lexeme := .term "x1" none }, { lexeme := .operator .minus "-" },
        { lexeme := .term "5" none }] ∧
      tokenize "1.5e-10" = .ok [{ lexeme := .term "1.5e-10" none }] := by
  refine ⟨?_, ?_, ?_⟩
  · exact (tokenize_masked_sign "x1e" "5" "1" .minus).1 (by decide) (by decide) (List.all_eq_true.mp (by decide))
  · exact (tokenize_masked_sign "x1" "5" "1" .minus).1 (by decide) (by decide) (List.all_eq_true.mp (by decide))
  · exact (tokenize_masked_sign "x" "5" "1.5e-10" .minus).2 (by decide) (by decide) (by rintro _ ⟨⟩; decide)

end Token

end CommandScript
