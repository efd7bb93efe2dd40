import CommandScript.Proofs.Integers.Numbers

/-! The line of an assignment is one statement, opens and closes no block, calls no command, and is split into
the name and the formula. -/

namespace CommandScript

namespace Text

variable {word rest : Text}

theorem afterKeyword?_word {keyword found : Text} (letters : ∀ letter ∈ keyword, standsFor letter ' ' = false)
    (starts : afterKeyword? keyword (word ++ .char ' ' :: rest) = some found) :
    ∃ more, found = more ++ .char ' ' :: rest ∧ ∀ c ∈ more, c ∈ word := by
  induction keyword generalizing word with
  | nil =>
      simp only [afterKeyword?, Option.some.injEq] at starts
      exact ⟨word, starts.symm, fun _ member => member⟩
  | cons letter keyword ih =>
      cases word with
      | nil => simp [afterKeyword?, letters letter (by simp)] at starts
      | cons c word =>
          simp only [List.cons_append, afterKeyword?] at starts
          split at starts
          · obtain ⟨more, same, inside⟩ := ih (fun other member => letters other (by simp [member])) starts
            exact ⟨more, same, fun other member => by simp [inside other member]⟩
          · cases starts

theorem startsWith_word {other : Text} (clear : .char ' ' ∉ word) (clear' : .char ' ' ∉ other)
    (starts : startsWith (other ++ ([' '] : Text)) (word ++ .char ' ' :: rest)) : word = other := by
  have first := @cut?_word word rest ' ' fun c member same => clear (same ▸ member)
  obtain ⟨tail, whole⟩ := List.isPrefixOf_iff_prefix.mp starts
  rw [← whole, List.append_assoc, List.singleton_append,
    @cut?_word other tail ' ' fun c member same => clear' (same ▸ member)] at first
  exact (Prod.mk.inj (Option.some.inj first)).1.symm

end Text

/-- What follows a part of a name on an assignment's line opens no parenthesis. -/
theorem Flow.opensParen_assigned {more : Text} (marks : ∀ c ∈ more, isWordMark c) (tail : Text) :
    opensParen (more ++ .char ' ' :: .char '=' :: tail) = false := by
  cases more with
  | nil => simp [opensParen, Text.trimLeft, show Text.isBlank ' ' = true by decide,
      show Text.isBlank '=' = false by decide]
  | cons c more =>
      have word := marks c (by simp)
      have noParen : c ≠ '(' := (Text.uncounted_word word).1
      simp [opensParen, Text.trimLeft, (isWordMark_neutral word).1, noParen]

namespace Formula

variable {bound : Option Level}

theorem text_last (e : Formula bound) : ∃ before c, e.text = before ++ [c] ∧ Text.isBlank c = false := by
  have word {s : Text} (filled : s ≠ []) (marks : ∀ c ∈ s, isWordMark c) :
      ∃ before c, s = before ++ [c] ∧ Text.isBlank c = false :=
    ⟨s.dropLast, s.getLast filled, (List.dropLast_concat_getLast filled).symm,
      (isWordMark_neutral (marks _ (List.getLast_mem filled))).1⟩
  induction e with
  | literal numeral => exact word numeral.digits_filled fun c => numeral.mark
  | name identifier => exact word identifier.filled fun c => identifier.mark
  | group inner ih => exact ⟨.char '(' :: .char ' ' :: (inner.text ++ ([' '] : Text)), ')', by simp [text], by decide⟩
  | signed sign operand ih =>
      obtain ⟨before, c, same, visible⟩ := ih
      exact ⟨sign.op.text ++ .char ' ' :: before, c, by simp [text, same], visible⟩
  | plain inner ih => exact ih
  | binary op left right leftIh rightIh =>
      obtain ⟨before, c, same, visible⟩ := rightIh
      exact ⟨left.text ++ .char ' ' :: (op.text ++ .char ' ' :: before), c, by simp [text, same], visible⟩

theorem text_first (e : Formula bound) : ∃ c after, e.text = c :: after ∧ Text.isBlank c = false := by
  have word {s : Text} (filled : s ≠ []) (marks : ∀ c ∈ s, isWordMark c) :
      ∃ c after, s = c :: after ∧ Text.isBlank c = false := by
    obtain ⟨c, after, same⟩ := List.exists_cons_of_ne_nil filled
    exact ⟨c, after, same, (isWordMark_neutral (marks c (by simp [same]))).1⟩
  induction e with
  | literal numeral => exact word numeral.digits_filled fun c => numeral.mark
  | name identifier => exact word identifier.filled fun c => identifier.mark
  | group inner ih => exact ⟨'(', _, rfl, by decide⟩
  | signed sign operand ih => cases sign <;> exact ⟨_, _, rfl, by decide⟩
  | plain inner ih => exact ih
  | binary op left right leftIh rightIh =>
      obtain ⟨c, after, same, visible⟩ := leftIh
      exact ⟨c, after ++ .char ' ' :: (op.text ++ .char ' ' :: right.text), by simp [text, same], visible⟩

theorem trim_text (e : Formula bound) : Text.trim e.text = e.text := by
  obtain ⟨c, after, starts, visible⟩ := e.text_first
  obtain ⟨before, last, ends, visible'⟩ := e.text_last
  apply Text.trim_visible
  · rw [starts]
    rintro _ ⟨⟩
    exact visible
  · rw [ends, List.getLast?_concat]
    rintro _ ⟨⟩
    exact visible'

end Formula

theorem isWordMark_lower {c : CodePoint} (word : isWordMark c) :
    c.toLower ≠ ' ' ∧ c.toLower ≠ '(' ∧ Text.isNameChar c :=
  ascii_forall (p := fun c => isWordMark c → c.toLower ≠ ' ' ∧ c.toLower ≠ '(' ∧ Text.isNameChar c)
    (by decide) (isWordMark_ascii word) word

theorem Identifier.lower_clear (identifier : Identifier) : .char ' ' ∉ Text.lower identifier.text := by
  have ascii : ∀ c ∈ identifier.text, c.toNat < 128 := fun c member => isWordMark_ascii (identifier.mark member)
  rw [Text.lower_map ascii]
  intro blank
  obtain ⟨c, member, lowered⟩ := List.mem_map.mp blank
  exact (isWordMark_lower (identifier.mark member)).1 lowered

namespace Assignment

variable (line : Assignment)

theorem text_eq : line.text = line.target.text ++ .char ' ' :: .char '=' :: .char ' ' :: line.formula.text := by
  simp [text]

theorem text_marks : ∀ c ∈ line.text, isFormulaMark c := by
  intro c member
  simp only [text_eq, List.mem_append, List.mem_cons] at member
  rcases member with inside | rfl | rfl | rfl | inside
  · simp [isFormulaMark, line.target.mark inside]
  · decide
  · decide
  · decide
  · exact line.formula.text_marks c inside

theorem ascii : ∀ c ∈ line.text, c.toNat < 128 := fun c member => isFormulaMark_ascii (line.text_marks c member)

theorem unquoted : line.text.Unquoted := fun c member => (isFormulaMark_plain (line.text_marks c member)).1

theorem target_clear : ∀ c ∈ line.target.text, c ≠ ' ' := by
  rintro c member rfl
  exact absurd (line.target.mark member) (by decide)

theorem trimLeft : Text.trimLeft line.text = line.text := by
  obtain ⟨c, rest, same, word, -⟩ := line.target.cons
  simp [text_eq, same, Text.trimLeft, (isWordMark_neutral word).1]

theorem trim : Text.trim line.text = line.text := by
  obtain ⟨c, rest, same, word, -⟩ := line.target.cons
  obtain ⟨before, last, ends, visible⟩ := line.formula.text_last
  apply Text.trim_visible
  · rw [text_eq, same]
    rintro _ ⟨⟩
    exact (isWordMark_neutral word).1
  · have final : line.text = (line.target.text ++ .char ' ' :: .char '=' :: .char ' ' :: before) ++ [last] := by
      simp [text_eq, ends]
    rw [final, List.getLast?_concat]
    rintro _ ⟨⟩
    exact visible

theorem filled : line.text ≠ [] := by simp [text_eq]

theorem single : Text.splitStatements line.text = .ok [line.text] :=
  Text.splitStatements_unquoted line.unquoted (fun c member => (isFormulaMark_plain (line.text_marks c member)).2.1)
    line.trim line.filled

theorem noComment : Text.stripComment line.text = line.text :=
  Text.stripComment_unquoted line.unquoted fun member => (isFormulaMark_plain (line.text_marks _ member)).2.2.1 rfl

theorem balanced : Text.checkBalance line.text = .ok () := by
  apply Text.checkBalance_unquoted line.unquoted
  have whole : line.text = line.target.text ++ ((" = " : Text) ++ (line.formula.text ++ [])) := by simp [text]
  rw [whole, Text.countMarks_skip fun c member => Text.uncounted_word (line.target.mark member),
    Text.countMarks_skip (by decide), line.formula.countMarks_text]
  rfl

theorem noCall {keyword : Text} (letters : ∀ letter ∈ keyword, Text.standsFor letter ' ' = false) :
    (Text.afterKeyword? keyword line.text).any Flow.opensParen = false := by
  cases found : Text.afterKeyword? keyword line.text with
  | none => rfl
  | some after =>
      rw [text_eq] at found
      obtain ⟨more, rfl, inside⟩ := Text.afterKeyword?_word letters found
      exact Flow.opensParen_assigned (fun c member => line.target.mark (inside c member)) _

theorem conditionWord? : Flow.conditionWord? line.text = none := by
  have divided : Flow.afterElseBlankIf? line.text = none := by
    unfold Flow.afterElseBlankIf?
    cases found : Text.afterKeyword? "else" line.text with
    | none => rfl
    | some after =>
        rw [text_eq] at found
        obtain ⟨more, rfl, inside⟩ := Text.afterKeyword?_word (by decide) found
        cases more with
        | nil =>
            have white : Text.isBlank ' ' = true := by decide
            have visible : Text.isBlank '=' = false := by decide
            simp [white, visible, Text.trimLeft, guard, Text.afterKeyword?, Text.standsFor]
        | cons c more =>
            have visible := (isWordMark_neutral (line.target.mark (inside c (by simp)))).1
            simp [visible, guard, failure]
  have opening := @noCall line "if" (by decide)
  have continuing := @noCall line "elseif" (by decide)
  simp only [Flow.conditionWord?, line.trimLeft, opening, continuing, divided]
  rfl

theorem isWriteCall : Interpreter.isWriteCall line.text = false := by
  unfold Interpreter.isWriteCall
  cases found : Text.afterKeyword? "write" line.text with
  | none => rfl
  | some after =>
      rw [text_eq] at found
      obtain ⟨more, rfl, inside⟩ := Text.afterKeyword?_word (by decide) found
      have noKind (kind : Text) (letters : ∀ letter ∈ kind, Text.standsFor letter ' ' = false) :
          (Text.afterKeyword? kind (more ++ .char ' ' :: .char '=' :: .char ' ' :: line.formula.text)).any
            Flow.opensParen = false := by
        cases called : Text.afterKeyword? kind (more ++ .char ' ' :: .char '=' :: .char ' ' :: line.formula.text) with
        | none => rfl
        | some rest =>
            obtain ⟨fewer, rfl, inner⟩ := Text.afterKeyword?_word letters called
            exact Flow.opensParen_assigned (fun c member => line.target.mark (inside c (inner c member))) _
      apply List.any_eq_false.mpr
      intro kind member
      have letters : ∀ letter ∈ kind, Text.standsFor letter ' ' = false :=
        (show ∀ kind ∈ (["string", "int", "long", "float", "double", "array"] : List Text),
          ∀ letter ∈ kind, Text.standsFor letter ' ' = false by decide) kind member
      rw [noKind kind letters]
      decide

theorem lower : Text.lower line.text =
    Text.lower line.target.text ++ .char ' ' :: .char '=' :: .char ' ' :: line.formula.text.map CodePoint.toLower := by
  have target : ∀ c ∈ line.target.text, c.toNat < 128 := fun c member => isWordMark_ascii (line.target.mark member)
  rw [Text.lower_map line.ascii, Text.lower_map target, text_eq]
  simp

theorem lower_ne {word : Text} (other : .char '=' ∉ word) : Text.lower line.text ≠ word := by
  intro same
  apply other
  rw [← same, line.lower]
  simp

theorem isWordLine {word : Text} (block : word ∈ blockWords) : Flow.isWordLine word line.text = false := by
  have noBlank : .char ' ' ∉ word := (show ∀ word ∈ blockWords, .char ' ' ∉ word by decide) word block
  have noEquals : .char '=' ∉ word := (show ∀ word ∈ blockWords, .char '=' ∉ word by decide) word block
  have notStart : Text.startsWith (word ++ ([' '] : Text)) (Text.lower line.text) = false := by
    rw [Bool.eq_false_iff]
    intro starts
    rw [line.lower] at starts
    exact line.target.noBlock (Text.startsWith_word line.target.lower_clear noBlank starts ▸ block)
  rw [Flow.isWordLine]
  simp only [show (" " : Text) = [.char ' '] from rfl, notStart, line.lower_ne noEquals, decide_false, Bool.or_false]

theorem isForeach : Flow.isForeach line.text = false := by
  have white : Text.isBlank ' ' = true := by decide
  have equals : Text.isBlank '=' = false := by decide
  have kept : line.target.text.filter (fun c => !Text.isBlank c) = line.target.text := by
    apply List.filter_eq_self.mpr
    intro c member
    simp [(isWordMark_neutral (line.target.mark member)).1]
  have visible : line.text.filter (fun c => !Text.isBlank c) =
      line.target.text ++ .char '=' :: line.formula.text.filter (fun c => !Text.isBlank c) := by
    simp [text_eq, List.filter_append, kept, white, equals]
  have ascii : ∀ c ∈ (line.text.filter fun c => !Text.isBlank c).take 8, c.toNat < 128 := fun c member =>
    line.ascii c (List.mem_filter.mp (List.mem_of_mem_take member)).1
  rw [Flow.isForeach, Text.lower_map ascii, decide_eq_false_iff_not]
  intro same
  by_cases long : 8 ≤ line.target.text.length
  · have paren : .char '(' ∈ (line.target.text.take 8).map CodePoint.toLower := by
      rw [visible, List.take_append_of_le_length long] at same
      rw [same]
      decide
    obtain ⟨c, member, lowered⟩ := List.mem_map.mp paren
    exact absurd lowered (isWordMark_lower (line.target.mark (List.mem_of_mem_take member))).2.1
  · have early : .char '=' ∈ (line.text.filter fun c => !Text.isBlank c).take 8 := by
      rw [visible, List.take_append, List.mem_append]
      obtain ⟨more, rest⟩ : ∃ more, 8 - line.target.text.length = more + 1 :=
        ⟨8 - line.target.text.length - 1, by omega⟩
      exact .inr (by simp [rest])
    have inside : .char '=' ∈ ("foreach(" : Text) := by
      rw [← same]
      exact List.mem_map.mpr ⟨'=', early, by decide⟩
    exact absurd inside (by decide)

theorem judge : Flow.judge false [] line.text = .runs := by
  have endif := @isWordLine line "endif" (by decide)
  simp only [Flow.judge, if_neg (@lower_ne line "else" (by decide)), Flow.isEndif, endif,
    @lower_ne line "elseif" (by decide), @lower_ne line "else if" (by decide), line.conditionWord?, or_self]
  rfl

theorem word : Text.cutOrAll ' ' line.text = (line.target.text, .char '=' :: .char ' ' :: line.formula.text) := by
  rw [Text.cutOrAll, text_eq, Text.cut?_word line.target_clear]
  rfl

theorem splitAssignment? : Names.splitAssignment? line.text =
    some (line.target.text, .char ' ' :: line.formula.text) := by
  have white : Text.isBlank ' ' = true := by decide
  have equals : Text.isBlank '=' = false := by decide
  have inside : ∀ c ∈ line.target.text, (!(Text.isBlank c || c = '=')) = true := by
    intro c member
    have mark := line.target.mark member
    have other : c ≠ '=' := by
      rintro rfl
      exact absurd mark (by decide)
    simp [(isWordMark_neutral mark).1, other]
  have name : line.text.takeWhile (fun c => !(Text.isBlank c || c = '=')) = line.target.text := by
    rw [text_eq, List.takeWhile_append_of_pos inside]
    simp [white]
  have rest : line.text.drop line.target.text.length = .char ' ' :: .char '=' :: .char ' ' :: line.formula.text := by
    rw [text_eq, List.drop_left]
  simp only [Names.splitAssignment?, line.trimLeft, name, rest]
  simp [Text.trimLeft, white, equals]

theorem checkAssigned : Names.checkAssigned line.target.text = .ok () := by
  obtain ⟨c, rest, same, word, noDigit⟩ := line.target.cons
  have noBad : Names.badChar? line.target.text = none := by
    apply List.find?_eq_none.mpr
    intro other member
    simp [(isWordMark_lower (line.target.mark member)).2.2]
  have plain : Text.isDigitChar c = false := by
    have ascii := isWordMark_ascii word
    simp [Text.isDigitChar, noDigit, Nat.not_le.mpr ascii]
  have head : line.target.text.head? = some c := by rw [same]; rfl
  simp [Names.checkAssigned, head, noBad, plain, line.target.free]

end Assignment

end CommandScript
