import CommandScript.Proofs.Failures.Intact
import CommandScript.Proofs.Grammar.Quotes
import CommandScript.Proofs.Passes.References

/-! Elements of an array whose index is an expression. What stands in the brackets is read as an expression of its own,
its value is written as a number between brackets again, and that text is looked up among the variables. -/

namespace CommandScript

variable {σ : Type}

namespace Text

def UnquotedBrackets (s : Text) : Prop :=
  ∀ span ∈ Span.scan s, span.isPlain = false → .char '[' ∉ span.text ∧ .char ']' ∉ span.text

instance (s : Text) : Decidable s.UnquotedBrackets := List.decidableBAll _ _

def reference (name index : Text) : Text := name ++ "[" ++ index ++ "]"

/-- Marks are counted in the same way when parentheses and brackets stand around them. -/
theorem countMarks_inside {spans : List Span} (closed : ∀ quote rest, Span.unclosed quote rest ∉ spans)
    {parens brackets parens' brackets' : Nat} (counted : countMarks parens brackets spans = .ok (parens', brackets'))
    (around outer : Nat) (rest : List Span) :
    countMarks (parens + around) (brackets + outer) (spans ++ rest) =
      countMarks (parens' + around) (brackets' + outer) rest := by
  induction spans generalizing parens brackets with
  | nil =>
      cases counted
      rfl
  | cons span spans ih =>
      have later : ∀ quote rest, Span.unclosed quote rest ∉ spans :=
        fun quote rest member => closed quote rest (List.mem_cons_of_mem _ member)
      cases span with
      | unclosed quote body => exact absurd List.mem_cons_self (closed quote body)
      | quoted quote body => exact ih later counted
      | plain c =>
          simp only [List.cons_append, countMarks] at counted ⊢
          by_cases opensCall : c = '('
          · rw [if_pos opensCall] at counted ⊢
            rw [Nat.add_right_comm parens]
            exact ih later counted
          by_cases closesCall : c = ')'
          · rw [if_neg opensCall, if_pos closesCall] at counted ⊢
            split at counted
            · cases counted
            · rename_i inCall
              rw [if_neg (by omega), show parens + around - 1 = parens - 1 + around by omega]
              exact ih later counted
          by_cases opens : c = '['
          · rw [if_neg opensCall, if_neg closesCall, if_pos opens] at counted ⊢
            rw [Nat.add_right_comm brackets]
            exact ih later counted
          by_cases closes : c = ']'
          · rw [if_neg opensCall, if_neg closesCall, if_neg opens, if_pos closes] at counted ⊢
            split at counted
            · cases counted
            · rename_i inside
              rw [if_neg (by omega), show brackets + outer - 1 = brackets - 1 + outer by omega]
              exact ih later counted
          · rw [if_neg opensCall, if_neg closesCall, if_neg opens, if_neg closes] at counted ⊢
            exact ih later counted

/-- In a text that passes the check of balance, no mark is left open. -/
theorem counted_balanced {s : Text} (balanced : checkBalance s = .ok ()) :
    countMarks 0 0 (Span.scan s) = .ok (0, 0) := by
  unfold checkBalance at balanced
  split at balanced
  · cases balanced
  · rename_i parens brackets counted
    split at balanced
    · cases balanced
    split at balanced
    · cases balanced
    · rw [counted, show parens = 0 by omega, show brackets = 0 by omega]

end Text

namespace Lexeme

theorem cutBracket_skip {inner : Text} (plain : .char '[' ∉ inner ∧ .char ']' ∉ inner) (depth : Nat) (rest : Text) :
    cutBracket depth (inner ++ rest) = (inner ++ (cutBracket depth rest).1, (cutBracket depth rest).2) := by
  induction inner with
  | nil => rfl
  | cons c inner ih =>
      simp only [List.mem_cons, not_or] at plain
      obtain ⟨⟨noLeft, plainLeft⟩, noRight, plainRight⟩ := plain
      simp [cutBracket, Ne.symm noLeft, Ne.symm noRight, ih ⟨plainLeft, plainRight⟩]

/-- Where no bracket stands in quotes, brackets are cut off as the marks are counted. -/
theorem cutBracket_counted {spans : List Span}
    (plain : ∀ span ∈ spans, span.isPlain = false → .char '[' ∉ span.text ∧ .char ']' ∉ span.text)
    (closed : ∀ quote rest, Span.unclosed quote rest ∉ spans) {parens brackets parens' brackets' : Nat}
    (counted : Text.countMarks parens brackets spans = .ok (parens', brackets')) (rest : Text) :
    cutBracket brackets (Span.flatten spans ++ rest) =
      (Span.flatten spans ++ (cutBracket brackets' rest).1, (cutBracket brackets' rest).2) := by
  induction spans generalizing parens brackets with
  | nil =>
      cases counted
      rfl
  | cons span spans ih =>
      have later : ∀ quote rest, Span.unclosed quote rest ∉ spans :=
        fun quote rest member => closed quote rest (List.mem_cons_of_mem _ member)
      have others : ∀ span ∈ spans, span.isPlain = false → .char '[' ∉ span.text ∧ .char ']' ∉ span.text :=
        fun other member => plain other (List.mem_cons_of_mem _ member)
      rw [show Span.flatten (span :: spans) = span.text ++ Span.flatten spans from rfl, List.append_assoc]
      cases span with
      | unclosed quote body => exact absurd List.mem_cons_self (closed quote body)
      | quoted quote body =>
          rw [cutBracket_skip (plain _ List.mem_cons_self rfl), ih others later counted, List.append_assoc]
      | plain c =>
          simp only [Text.countMarks] at counted
          rw [Span.text, List.singleton_append, cutBracket]
          by_cases opens : c = '['
          · subst opens
            simp only [CodePoint.char.injEq, Char.reduceEq, false_and, if_false, if_true] at counted ⊢
            rw [ih others later counted]
            rfl
          by_cases closes : c = ']'
          · subst closes
            simp only [CodePoint.char.injEq, Char.reduceEq, if_false, if_true] at counted
            split at counted
            · cases counted
            · rename_i inside
              rw [if_neg fun ends => inside ends.2]
              simp only [CodePoint.char.injEq, Char.reduceEq, if_false, if_true]
              rw [ih others later counted]
              rfl
          · have inner : ∃ parens, Text.countMarks parens brackets spans = .ok (parens', brackets') := by
              rw [if_neg opens, if_neg closes] at counted
              split at counted
              · exact ⟨_, counted⟩
              split at counted
              · split at counted
                · cases counted
                · exact ⟨_, counted⟩
              · exact ⟨_, counted⟩
            obtain ⟨_, counted⟩ := inner
            rw [if_neg fun ends => closes ends.1, if_neg opens, if_neg closes, ih others later counted]
            rfl

theorem scan_empty {s : Text} (blank : Text.trim s = []) : scan s = .ok [] := by
  induction s with
  | nil => rw [scan]
  | cons c rest ih =>
      cases white : Text.isBlank c with
      | false => exact absurd blank (Text.trim_ne_nil white rest)
      | true =>
          have skipped : Text.trim (c :: rest) = Text.trim rest := by
            rw [Text.trim, Text.trimLeft, List.dropWhile_cons_of_pos white]
            rfl
          rw [scan, if_pos white, ih (skipped ▸ blank)]

end Lexeme

namespace Expr

variable {name index : Text} {e : Expr}

theorem parse_filled (parsed : parse index = .ok e) : Text.trim index ≠ [] := by
  intro blank
  obtain ⟨tokens, tokenized, -, yields⟩ := parse_eq_ok.mp parsed
  obtain ⟨first, rest, rfl, -⟩ := yields.first
  obtain ⟨-, -, scanning⟩ := bind_eq_ok.mp tokenized
  rw [Lexeme.scan_empty blank] at scanning
  cases scanning

theorem parse_counted (parsed : parse index = .ok e) : Text.countMarks 0 0 (Span.scan index) = .ok (0, 0) := by
  obtain ⟨tokens, tokenized, -, -⟩ := parse_eq_ok.mp parsed
  obtain ⟨_, balanced, -⟩ := bind_eq_ok.mp tokenized
  exact Text.counted_balanced balanced

theorem tokenize_reference (valid : isValidName name = true) (parsed : parse index = .ok e)
    (brackets : index.UnquotedBrackets) :
    Token.tokenize (Text.reference name index) = .ok [{ lexeme := .term name (some index) }] := by
  have dotted := isValidName_dotted valid
  have whole : Text.reference name index = name ++ .char '[' :: (index ++ ([']'] : Text)) := by simp [Text.reference]
  have closed := parse_closed parsed
  have counted := parse_counted parsed
  have unquoted : name.Unquoted := fun c member => (Text.dotted_neutral (dotted c member)).2.2.1
  have spans : Span.scan (Text.reference name index) =
      name.map .plain ++ .plain '[' :: (Span.scan index ++ [.plain ']']) := by
    rw [whole, Span.scan_append unquoted, Text.scan_plain rfl, closed.scan_append, Text.scan_plain rfl]
    simp [Span.scan, Span.scanWith]
  have balanced : Text.checkBalance (Text.reference name index) = .ok () := by
    have front := Text.countMarks_uncounted fun c member => (Text.dotted_neutral (dotted c member)).2.2.2
    have inner := Text.countMarks_inside closed counted 0 1 [.plain ']']
    have outer := Text.countMarks_inside (by simp) front 0 0 (.plain '[' :: (Span.scan index ++ [.plain ']']))
    have all : Text.countMarks 0 0 (Span.scan (Text.reference name index)) = .ok (0, 0) := by
      rw [spans]
      exact outer.trans inner
    unfold Text.checkBalance
    rw [all]
    rfl
  have cut : Lexeme.cutBracket 0 (index ++ ([']'] : Text)) = (index, []) := by
    have found := Lexeme.cutBracket_counted brackets closed counted [.char ']']
    rw [Span.flatten_scan] at found
    simpa [Lexeme.cutBracket] using found
  have scanned : Lexeme.scan (Text.reference name index) = .ok [.term name (some index)] := by
    rw [whole, Lexeme.scan_dotted (isValidName_filled valid) dotted (.inr rfl), if_pos rfl, cut,
      if_neg (parse_filled parsed),
      Lexeme.scan]
    rfl
  simp only [Token.tokenize, balanced, scanned, bind, Except.bind]
  rfl

theorem parse_reference (valid : isValidName name = true) (parsed : parse index = .ok e)
    (brackets : index.UnquotedBrackets) : parse (Text.reference name index) = .ok (.element name e) :=
  parse_eq_ok.mpr ⟨_, tokenize_reference valid parsed brackets,
    .element (isValidName_filled valid) (parse_shaped parsed),
    .element name parsed⟩

theorem eval_store {env : Env σ} {logical : Bool} {session after : Session σ} {value : Value}
    (evaluated : eval env logical e session = .ok value after) : after.store = session.store := by
  have kept := Intact.evaluates (fun base => eval_respects (Intact.evaluable base) env logical e) (Intact.refl session)
  rw [Run.Meets, evaluated] at kept
  cases kept with
  | ok intact => exact intact.store

theorem valueOf_reference {env : Env σ} {session after : Session σ} {value : Value} (valid : isValidName name = true)
    (parsed : parse index = .ok e) (brackets : index.UnquotedBrackets)
    (evaluated : eval env false e session = .ok value after)
    (room : session.depth + (Expr.element name e).callsNeeded ≤ Run.callLimit) :
    valueOf env (Text.reference name index) session = evalElement env name value after := by
  have whole : Text.reference name index = name ++ (.char '[' :: index) ++ ([']'] : Text) := by simp [Text.reference]
  have read := parse_reference valid parsed brackets
  rw [whole] at read
  rw [whole, valueOf_closed valid (.inr rfl) read room]
  simp only [eval, bind, EStateM.bind, evaluated]

theorem evalElement_digits {env : Env σ} {session : Session σ} {i : Int} (large : Number.integerLimit ≤ i.natAbs) :
    evalElement env name (.int i) session = .error (.fault .digits) session := by
  have unshown : Number.integerText i = .error .digits := if_neg (Nat.not_lt.mpr large)
  simp only [evalElement, unshown, bind, EStateM.bind]
  rfl

end Expr

end CommandScript
