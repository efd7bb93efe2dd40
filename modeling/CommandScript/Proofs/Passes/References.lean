import CommandScript.Proofs.Integers.Running
import CommandScript.Proofs.Passes.Splitting
import CommandScript.Proofs.Text.Casing

/-! Expressions about an array: its size and its elements. Their texts are read into a call and an element of the array,
and their values are found in the text that the variable holds. -/

namespace CommandScript

variable {σ : Type}

namespace Text

theorem blank_unnamed {c : CodePoint} (blank : isBlank c = true) : isDottedNameChar c = false :=
  blank_forall (p := fun c => isDottedNameChar c = false) (by decide +kernel) (by decide +kernel) blank

theorem ofInt_marks (n : Int) : (∀ c ∈ ofInt n, c ≠ ']') ∧ trim (ofInt n) = ofInt n := by
  have digit {n : Nat} : ∀ c ∈ ofNat n, isWordMark c := fun _ => (Numeral.ofNat n).mark
  have digits (n : Nat) : ∀ c ∈ ofNat n, c ≠ ']' ∧ isBlank c = false := fun c member =>
    ⟨(uncounted_word (digit c member)).2.2.2, (isWordMark_neutral (digit c member)).1⟩
  have marks : ∀ c ∈ ofInt n, c ≠ ']' ∧ isBlank c = false := by
    cases n with
    | ofNat n => exact digits n
    | negSucc n => exact List.forall_mem_cons.mpr ⟨by decide, digits (n + 1)⟩
  exact ⟨fun c member => (marks c member).1, trim_visible (fun c member => (marks c (List.mem_of_mem_head? member)).2)
    fun c member => (marks c (List.mem_of_mem_getLast? member)).2⟩

theorem foreign_neutral {c : CodePoint} (foreign : ¬c.toNat < 128) :
    Operator.ofChar? c = none ∧ Quote.of? c = none ∧ Uncounted c := by
  have others {mark : CodePoint} (ascii : mark.toNat < 128) : c ≠ mark := fun same => foreign (same ▸ ascii)
  refine ⟨?_, ?_, others (by decide), others (by decide), others (by decide), others (by decide)⟩
  · unfold Operator.ofChar?
    split
    all_goals first | rfl | exact absurd rfl (others (by decide))
  · rw [Quote.of?, if_neg (others (by decide)), if_neg (others (by decide)), if_neg (others (by decide)),
      if_neg (others (by decide))]

theorem dotted_neutral {c : CodePoint} (dotted : isDottedNameChar c = true) :
    isBlank c = false ∧ Operator.ofChar? c = none ∧ Quote.of? c = none ∧ Uncounted c := by
  have visible : isBlank c = false := by
    refine Bool.eq_false_iff.mpr fun blank => ?_
    rw [blank_unnamed blank] at dotted
    cases dotted
  by_cases ascii : c.toNat < 128
  · exact ⟨visible, ascii_forall (p := fun c => isDottedNameChar c = true →
      Operator.ofChar? c = none ∧ Quote.of? c = none ∧ Uncounted c) (by decide) ascii dotted⟩
  · exact ⟨visible, foreign_neutral ascii⟩

theorem trim_dotted {name : Text} (dotted : ∀ c ∈ name, isDottedNameChar c = true) : trim name = name :=
  have visible (c : CodePoint) (member : c ∈ name) : isBlank c = false := (dotted_neutral (dotted c member)).1
  trim_visible (fun c member => visible c (List.mem_of_mem_head? member))
    (fun c member => visible c (List.mem_of_mem_getLast? member))

end Text

namespace Lexeme

theorem cutTerm_dotted {name rest : Text} (dotted : ∀ c ∈ name, Text.isDottedNameChar c = true) {mark : CodePoint}
    (opening : mark = '(' ∨ mark = '[') (older last : CodePoint) :
    cutTerm older last (name ++ mark :: rest) = (name, mark :: rest) := by
  refine cutTerm_plain (fun c member => ?_) (fun older last => by rcases opening with rfl | rfl <;> rfl) older last
  obtain ⟨-, noOperator, noQuote, -, -, noBracket, -⟩ := Text.dotted_neutral (dotted c member)
  simp [endsTerm, noOperator, Quote.isOpening, noQuote, noBracket]

theorem scan_dotted {name rest : Text} (filled : name ≠ []) (dotted : ∀ c ∈ name, Text.isDottedNameChar c = true)
    {mark : CodePoint} (opening : mark = '(' ∨ mark = '[') :
    scan (name ++ mark :: rest) =
      if mark = '[' then
        if Text.trim (cutBracket 0 rest).1 = [] then .error (.emptyBrackets (mark :: rest))
        else (scan (cutBracket 0 rest).2).map (term name (some (cutBracket 0 rest).1) :: ·)
      else (scan (mark :: rest)).map (term name none :: ·) := by
  have trimmed := Text.trim_dotted dotted
  obtain ⟨c, more, rfl⟩ := List.exists_cons_of_ne_nil filled
  obtain ⟨visible, noOperator, noQuote, -, -, noBracket, -⟩ := Text.dotted_neutral (dotted c (by simp))
  have starts : StartsTerm c := ⟨visible, noQuote, noBracket, noOperator⟩
  have cut := @cutTerm_dotted more rest (fun other member => dotted other (List.mem_cons_of_mem c member)) mark
    opening ' ' c
  rw [List.cons_append]
  rcases opening with rfl | rfl
  · rw [if_neg (by decide), starts.scan cut nofun, trimmed]
  · rw [if_pos rfl, starts.scan_index cut, trimmed, scanInside]

theorem cutBracket_plain {inner : Text} (uncounted : ∀ c ∈ inner, Text.Uncounted c) (rest : Text) :
    cutBracket 0 (inner ++ .char ']' :: rest) = (inner, rest) := by
  induction inner with
  | nil => rfl
  | cons c inner ih =>
      obtain ⟨-, -, noLeft, noRight⟩ := uncounted c (by simp)
      have inside := ih fun other member => uncounted other (by simp [member])
      simp [cutBracket, noLeft, noRight, inside]

end Lexeme

def Text.sizeCall (name : Text) : Text := name ++ ".size()"

def Text.subscript (name : Text) (position : Nat) : Text := name ++ "[" ++ Text.ofNat position ++ "]"

section

variable {name : Text} (valid : isValidName name = true)

include valid

theorem isValidName_filled : name ≠ [] := by
  rintro rfl
  cases valid

theorem isValidName_dotted : ∀ c ∈ name, Text.isDottedNameChar c = true := by
  intro c member
  simp only [isValidName, Bool.and_eq_true, List.all_eq_true] at valid
  rw [Text.isDottedNameChar, valid.2 c member]
  rfl

theorem isValidName_plain : PlainName name where
  noBracket member := (Text.dotted_neutral (isValidName_dotted valid _ member)).2.2.2.2.2.1 rfl
  trimmed := Text.trim_dotted (isValidName_dotted valid)

theorem sizeName_dotted : ∀ c ∈ name ++ (".size" : Text), Text.isDottedNameChar c = true := by
  intro c member
  rcases List.mem_append.mp member with inside | inside
  · exact isValidName_dotted valid c inside
  · exact List.all_eq_true.mp (show (".size" : Text).all Text.isDottedNameChar = true by decide) c inside

theorem tokenize_sizeCall : Token.tokenize (Text.sizeCall name) =
    .ok [{ lexeme := .term (name ++ ".size") none }, { lexeme := .operator .openParen "(" },
      { lexeme := .operator .closeParen ")" }] := by
  have dotted := sizeName_dotted valid
  have whole : Text.sizeCall name = (name ++ ".size") ++ .char '(' :: ([')'] : Text) := by simp [Text.sizeCall]
  have unquoted : (Text.sizeCall name).Unquoted := by
    intro c member
    rw [whole] at member
    rcases List.mem_append.mp member with inside | inside
    · exact (Text.dotted_neutral (dotted c inside)).2.2.1
    · rcases List.mem_pair.mp inside with rfl | rfl <;> rfl
  have balanced : Text.checkBalance (Text.sizeCall name) = .ok () := by
    refine Text.checkBalance_unquoted unquoted ?_
    rw [whole, Text.countMarks_skip fun c member => (Text.dotted_neutral (dotted c member)).2.2.2]
    rfl
  have scanned : Lexeme.scan (Text.sizeCall name) =
      .ok [.term (name ++ ".size") none, .operator .openParen "(", .operator .closeParen ")"] := by
    rw [whole, Lexeme.scan_dotted (by simp) dotted (.inl rfl), if_neg (by decide),
      Lexeme.scan_mark (by decide) (by decide) (by decide) rfl rfl, Lexeme.scan_close, Lexeme.scan]
    rfl
  simp only [Token.tokenize, balanced, scanned, bind, Except.bind]
  rfl

theorem parse_sizeCall : Expr.parse (Text.sizeCall name) = .ok (.call (name ++ ".size") []) :=
  Expr.parse_eq_ok.mpr ⟨_, tokenize_sizeCall valid, .call (List.all_eq_true.mpr (sizeName_dotted valid)) nofun,
    .call _ (.single rfl) (.single rfl) .none⟩

theorem tokenize_subscript (position : Nat) : Token.tokenize (Text.subscript name position) =
    .ok [{ lexeme := .term name (some (Text.ofNat position)) }] := by
  have dotted := isValidName_dotted valid
  have whole : Text.subscript name position = name ++ .char '[' :: (Text.ofNat position ++ ([']'] : Text)) := by
    simp [Text.subscript]
  have digit : ∀ c ∈ Text.ofNat position, isWordMark c := fun _ => (Numeral.ofNat position).mark
  have cut := Lexeme.cutBracket_plain (fun c member => Text.uncounted_word (digit c member)) []
  have unquoted : (Text.subscript name position).Unquoted := by
    intro c member
    rw [whole] at member
    simp only [List.mem_append, List.mem_cons, List.not_mem_nil, or_false] at member
    rcases member with inside | rfl | inside | rfl
    · exact (Text.dotted_neutral (dotted c inside)).2.2.1
    · rfl
    · exact (isWordMark_neutral (digit c inside)).2.2.1
    · rfl
  have balanced : Text.checkBalance (Text.subscript name position) = .ok () := by
    refine Text.checkBalance_unquoted unquoted ?_
    rw [whole, Text.countMarks_skip fun c member => (Text.dotted_neutral (dotted c member)).2.2.2]
    exact Text.countMarks_skip (fun c member => Text.uncounted_word (digit c member)) 0 _
  have filled : Text.trim (Text.ofNat position) ≠ [] := by
    rw [Text.trim_marks digit]
    exact (Numeral.ofNat position).digits_filled
  have scanned : Lexeme.scan (Text.subscript name position) = .ok [.term name (some (Text.ofNat position))] := by
    rw [whole, Lexeme.scan_dotted (isValidName_filled valid) dotted (.inr rfl), if_pos rfl, cut, if_neg filled,
      Lexeme.scan]
    rfl
  simp only [Token.tokenize, balanced, scanned, bind, Except.bind]
  rfl

theorem parse_subscript (position : Nat) :
    Expr.parse (Text.subscript name position) = .ok (.element name (.term (Text.ofNat position))) := by
  have inner : Expr.parse (Text.ofNat position) = .ok (.term (Text.ofNat position)) :=
    Formula.parse_text (.plain (.plain (.plain (.plain (.literal (.ofNat position))))))
  exact Expr.parse_eq_ok.mpr ⟨_, tokenize_subscript valid position,
    .element (isValidName_filled valid) (.term (Numeral.ofNat position).digits_filled), .element name inner⟩

end

namespace Builtin

variable {env : Env σ} {session : Session σ} {name text : Text}

theorem sizeOf?_stored (plain : PlainName name) (unbound : session.buffer? name = none)
    (stored : session.store.lookup name = some text) :
    sizeOf? name session = .ok (some ((splitArray text).length : Int)) session := by
  have empty : Text.trim text = "\"\"" → splitArray text = [] := by
    intro same
    refine Text.fieldsBy_eq_nil fun c member visible => ?_
    have kept := Text.count_trim visible text
    rw [same] at kept
    have quote : c ∈ [.char '"', .char '"'] := List.count_pos_iff.mp (kept ▸ List.count_pos_iff.mpr member)
    simp [show c = '"' by simpa using quote]
  simp only [sizeOf?, Run.readVariable, bind, EStateM.bind, EStateM.get_apply, unbound, plain.get?, stored,
    Run.ofFailure,
    Run.ofExcept, pure, EStateM.pure]
  split
  · rename_i same
    rw [empty same]
    rfl
  · rfl

theorem dot_unnamed (f : Builtin) (member : f ∈ all) : .char '.' ∉ Text.lower f.name := by
  have known : all.all (fun f => .char '.' ∉ Text.lower f.name) = true := by decide
  exact of_decide_eq_true (List.all_eq_true.mp known f member)

theorem invoke_size (plain : PlainName name) (unbound : session.buffer? name = none)
    (stored : session.store.lookup name = some text) :
    invoke env (name ++ ".size") [] session = .ok (.int (splitArray text).length) session := by
  have ends : (".size" : Text) <:+ Text.lower (name ++ ".size") := @Text.lower_append name ".size" (by simp)
  have other : of? (name ++ ".size") = none := by
    refine List.find?_eq_none.mpr fun f member same => dot_unnamed f member ?_
    rw [of_decide_eq_true same]
    exact ends.subset (by decide)
  have named : (name ++ ".size").take ((name ++ ".size").length - 5) = name := by simp
  have sized : Text.endsWith ".size" (Text.lower (name ++ ".size")) = true := List.isSuffixOf_iff_suffix.mpr ends
  simp only [invoke, other, sized, List.isEmpty_nil, Bool.and_self, if_true, named, bind, EStateM.bind,
    sizeOf?_stored plain unbound stored]
  rfl

end Builtin

theorem position_field (fields : List Text) (position : Nat) :
    (if 1 ≤ (position : Int) then fields[((position : Int) - 1).toNat]? else none) =
      if 1 ≤ position then fields[position - 1]? else none := by
  by_cases positive : 1 ≤ position
  · rw [if_pos positive, if_pos (by omega), show ((position : Int) - 1).toNat = position - 1 by omega]
  · rw [if_neg positive, if_neg (by omega)]

namespace Store

variable {store : Store} {name text : Text}

theorem get?_index (plain : PlainName name) (stored : store.lookup name = some text) {index : Int}
    (small : index.natAbs < Number.integerLimit) :
    store.get? (name ++ "[" ++ Text.ofInt index ++ "]") =
      match if 1 ≤ index then (splitArray text)[(index - 1).toNat]? else none with
      | some field => .ok (some field)
      | none => fail (.indexRange (name ++ "[" ++ Text.ofInt index ++ "]")) := by
  obtain ⟨closes, trimmed⟩ := Text.ofInt_marks index
  have opening : Text.cut? '[' (name ++ "[" ++ Text.ofInt index ++ "]") =
      some (name, Text.ofInt index ++ ([']'] : Text)) := by
    rw [List.append_assoc, List.append_assoc]
    exact Text.cut?_word fun c member same => plain.noBracket (same ▸ member)
  have closing : Text.cut? ']' (Text.ofInt index ++ ([']'] : Text)) = some (Text.ofInt index, []) :=
    Text.cut?_word closes
  simp only [get?, opening, closing, show Text.trim [] = [] from rfl, ne_eq, not_true_eq_false, if_false, plain.trimmed,
    stored, trimmed, element, Text.parseInt_ofInt small]
  cases (if 1 ≤ index then (splitArray text)[(index - 1).toNat]? else none) <;> rfl

end Store

namespace Expr

variable {env : Env σ} {session : Session σ} {name text : Text}

/-- A text that starts with a name and ends with a closing mark is neither trimmed nor a number nor a truth value: it is
read and evaluated. -/
theorem valueOf_closed (valid : isValidName name = true) {rest : Text} {mark : CodePoint}
    (closing : mark = ')' ∨ mark = ']')
    {e : Expr} (parsed : parse (name ++ rest ++ [mark]) = .ok e)
    (room : session.depth + e.callsNeeded ≤ Run.callLimit) :
    valueOf env (name ++ rest ++ [mark]) session = eval env false e session := by
  have known : Text.isBlank mark = false ∧ Number.Foreign mark ∧ mark.toNat < 128 ∧ mark.toLower ≠ 'e' := by
    rcases closing with rfl | rfl <;> decide
  obtain ⟨visible, foreign, ascii, other⟩ := known
  have trimmed : Text.trim (name ++ rest ++ [mark]) = name ++ rest ++ [mark] := by
    obtain ⟨c, more, rfl⟩ := List.exists_cons_of_ne_nil (isValidName_filled valid)
    refine Text.trim_visible (fun first found => ?_) fun last found => ?_
    · obtain rfl : c = first := Option.some.inj found
      exact (Text.dotted_neutral (isValidName_dotted valid c (by simp))).1
    · obtain rfl : mark = last := Option.some.inj (List.getLast?_concat.symm.trans found)
      exact visible
  have noTruth :
      ¬(Text.lower (name ++ rest ++ [mark]) = "true" ∨ Text.lower (name ++ rest ++ [mark]) = "false") := by
    obtain ⟨front, same⟩ := @Text.lower_append (name ++ rest) [mark] (by simpa using ascii)
    have ends : (Text.lower (name ++ rest ++ [mark])).getLast? = some mark.toLower := same ▸ List.getLast?_concat
    rintro (truth | truth) <;> rw [truth] at ends <;> exact other (Option.some.inj ends).symm
  rw [valueOf_parsed trimmed (Number.isNumber_foreign foreign trimmed (by simp)) noTruth parsed,
    if_neg (Nat.not_lt.mpr room)]

theorem valueOf_sizeCall (valid : isValidName name = true) (unbound : session.buffer? name = none)
    (stored : session.store.lookup name = some text) (room : session.depth + 11 ≤ Run.callLimit) :
    valueOf env (Text.sizeCall name) session = .ok (.int (splitArray text).length) session := by
  have parsed := parse_sizeCall valid
  have whole : Text.sizeCall name = name ++ (".size(" : Text) ++ ([')'] : Text) := by simp [Text.sizeCall]
  rw [whole] at parsed ⊢
  rw [valueOf_closed valid (.inl rfl) parsed room]
  exact Builtin.invoke_size (isValidName_plain valid) unbound stored

theorem evalElement_int (plain : PlainName name) (stored : session.store.lookup name = some text) {index : Int}
    (small : index.natAbs < Number.integerLimit) :
    evalElement env name (.int index) session =
      match if 1 ≤ index then (splitArray text)[(index - 1).toNat]? else none with
      | some field => Run.ofFault (Value.classify field) session
      | none => Run.fail (.store (.indexRange (name ++ "[" ++ Text.ofInt index ++ "]"))) session := by
  have shown : Number.integerText index = .ok (Text.ofInt index) := if_pos small
  simp only [evalElement, shown, Run.ofFault, Run.ofExcept, bind, EStateM.bind, pure, EStateM.pure, Run.readVariable,
    EStateM.get_apply, Store.get?_index plain stored small]
  cases (if 1 ≤ index then (splitArray text)[(index - 1).toNat]? else none) <;> rfl

theorem eval_element {logical : Bool} (plain : PlainName name) (stored : session.store.lookup name = some text)
    {position : Nat} (small : position < Number.integerLimit) :
    eval env logical (.element name (.term (Text.ofNat position))) session =
      match if 1 ≤ position then (splitArray text)[position - 1]? else none with
      | some field => Run.ofFault (Value.classify field) session
      | none => Run.fail (.store (.indexRange (Text.subscript name position))) session := by
  have index : evalTerm env (Text.ofNat position) session = .ok (.int position) session := by
    have read := (Numeral.ofNat position).evalTerm env session
    rw [if_neg (Nat.not_lt.mpr (Numeral.ofNat_short small)), Numeral.ofNat_number] at read
    exact read
  have read := @evalElement_int σ env session name text plain stored (position : Int) small
  rw [position_field] at read
  simp only [eval, bind, EStateM.bind, index]
  exact read

theorem valueOf_subscript (valid : isValidName name = true) (stored : session.store.lookup name = some text)
    (room : session.depth + 17 ≤ Run.callLimit) {position : Nat} (small : position < Number.integerLimit) :
    valueOf env (Text.subscript name position) session =
      match if 1 ≤ position then (splitArray text)[position - 1]? else none with
      | some field => Run.ofFault (Value.classify field) session
      | none => Run.fail (.store (.indexRange (Text.subscript name position))) session := by
  have parsed := parse_subscript valid position
  have whole : Text.subscript name position = name ++ (.char '[' :: Text.ofNat position) ++ ([']'] : Text) := by
    simp [Text.subscript]
  rw [whole] at parsed
  rw [← @eval_element σ env session name text false (isValidName_plain valid) stored position small, whole,
    valueOf_closed valid (.inr rfl) parsed room]

end Expr

end CommandScript
