import CommandScript.Proofs.Aliases.Spans
import CommandScript.Proofs.Text.Casing
import Mathlib.Data.List.Find

/-! Keywords of a line. A keyword is a run of letters, for some of them with the opening parenthesis right after
it, so a delimiter other than that parenthesis keeps what stands before it apart from what stands after it. -/

namespace CommandScript

namespace Text

/-- A keyword goes on to a character that none of its letters stands for only if it ended before. -/
theorem afterKeyword?_append {word : Text} {d : CodePoint} (apart : ∀ letter ∈ word, standsFor letter d = false)
    (s rest : Text) :
    (afterKeyword? word (s ++ d :: rest)).isSome = (afterKeyword? word s).isSome := by
  induction word generalizing s with
  | nil => simp [afterKeyword?]
  | cons letter more ih =>
      cases s with
      | nil => simp [afterKeyword?, apart letter (by simp)]
      | cons c s =>
          simp only [List.cons_append, afterKeyword?]
          split
          · exact ih (fun other member => apart other (by simp [member])) s
          · rfl

/-- A keyword ends with the first character that only its last letter stands for. -/
theorem afterKeyword?_last {word : Text} {d : CodePoint} (apart : ∀ letter ∈ word.dropLast, standsFor letter d = false)
    (s rest : Text) : (afterKeyword? word (s ++ d :: rest)).isSome = (afterKeyword? word (s ++ [d])).isSome := by
  induction word generalizing s with
  | nil => simp [afterKeyword?]
  | cons letter more ih =>
      cases s with
      | nil =>
          cases more with
          | nil =>
              simp only [List.nil_append, afterKeyword?]
              split <;> rfl
          | cons next more => simp [afterKeyword?, apart letter (by simp)]
      | cons c s =>
          simp only [List.cons_append, afterKeyword?]
          split
          · cases more with
            | nil => simp [afterKeyword?]
            | cons next more => exact ih (fun other member => apart other (by simp [member])) s
          · rfl

theorem afterKeyword?_letters {word s : Text} (starts : (afterKeyword? word s).isSome) :
    ∀ letter ∈ word, ∃ c ∈ s, standsFor letter c = true := by
  induction word generalizing s with
  | nil => exact fun letter member => absurd member List.not_mem_nil
  | cons first more ih =>
      cases s with
      | nil => cases starts
      | cons c s =>
          rw [afterKeyword?] at starts
          split at starts
          · rename_i stands
            rw [List.forall_mem_cons]
            refine ⟨⟨c, by simp, stands⟩, fun letter member => ?_⟩
            obtain ⟨other, inside, found⟩ := ih starts letter member
            exact ⟨other, by simp [inside], found⟩
          · cases starts

theorem standsFor_unique {first second c : CodePoint} (stands : standsFor first c) (again : standsFor second c)
    (plain : first.toNat < 128) (plain' : second.toNat < 128) : first = second := by
  have special {letter : CodePoint} (ascii : letter.toNat < 128) (small : c.toLower = letter) :
      c ≠ '\u0130' ∧ c ≠ '\u0131' ∧ c ≠ '\u017f' ∧ c ≠ '\u212a' := by
    have known := toLower_eq small ascii
    refine ⟨?_, ?_, ?_, ?_⟩ <;> rintro rfl <;> revert known <;> decide
  simp only [standsFor, beq_iff_eq, Bool.or_eq_true, Bool.and_eq_true] at stands again
  by_cases small : c.toLower = first ∨ c.toLower = second
  · have other := small.elim (special plain) (special plain')
    simp only [other, or_self, and_false, or_false] at stands again
    exact stands.symm.trans again
  · simp only [not_or] at small
    simp only [small, false_or] at stands again
    rcases stands with (⟨rfl, rfl | rfl⟩ | ⟨rfl, rfl⟩) | ⟨rfl, rfl⟩ <;> symm <;> simpa using again

theorem afterKeyword?_concat {word s after : Text} (found : afterKeyword? word s = some after) (more rest : Text) :
    afterKeyword? (word ++ more) (s ++ rest) = afterKeyword? more (after ++ rest) := by
  induction word generalizing s with
  | nil =>
      obtain rfl := Option.some.inj found
      rfl
  | cons letter word ih =>
      cases s with
      | nil => cases found
      | cons c s =>
          simp only [List.cons_append, afterKeyword?] at found ⊢
          split at found
          · rename_i stands
            rw [if_pos stands, ih found]
          · cases found

theorem afterKeyword?_prefix {first second s : Text} (starts : (afterKeyword? first s).isSome)
    (again : (afterKeyword? second s).isSome) (ascii : ∀ letter ∈ first ++ second, letter.toNat < 128)
    (shorter : first.length ≤ second.length) : first <+: second := by
  induction first generalizing second s with
  | nil => exact List.nil_prefix
  | cons letter first ih =>
      obtain _ | ⟨other, second⟩ := second
      · cases shorter
      obtain _ | ⟨c, s⟩ := s
      · cases starts
      rw [afterKeyword?] at starts again
      split at starts
      · split at again
        · rename_i stands standsToo
          obtain rfl := standsFor_unique stands standsToo (ascii letter (by simp)) (ascii other (by simp))
          refine (List.prefix_cons_inj letter).mpr
            (ih starts again (fun c member => ascii c ?_) (Nat.le_of_succ_le_succ shorter))
          rcases List.mem_append.mp member with inside | inside <;> simp [inside]
        · cases again
      · cases starts

end Text

namespace AliasTable

def paren (called : Bool) : Text := if called then [.char '('] else []

theorem keywordLength_congr {s t : Text}
    (same : ∀ word ∈ keywords, (Text.afterKeyword? word s).isSome = (Text.afterKeyword? word t).isSome) :
    keywordLength s = keywordLength t := by
  rw [keywordLength, keywordLength, List.find?_congr same]

theorem isDelimiter_iff {c : CodePoint} : isDelimiter c = true ↔ c ∈ (" \t.~!@#$%^&*,;:()[]\x7b\x7d=><" : Text) := by
  rw [isDelimiter, List.contains_iff_mem]

/-- No letter of a keyword stands for a delimiter, but its last may be a parenthesis. -/
theorem keywords_delimiter : ∀ d ∈ (" \t.~!@#$%^&*,;:()[]\x7b\x7d=><" : Text), ∀ word ∈ keywords,
    (∀ letter ∈ word.dropLast, Text.standsFor letter d = false) ∧
      (d ≠ '(' → ∀ letter ∈ word, Text.standsFor letter d = false) := by
  decide

/-- Whether a keyword starts in front of a delimiter does not depend on what comes after it. -/
theorem keywordLength_append {d : CodePoint} (delimits : isDelimiter d) (s rest : Text) :
    keywordLength (s ++ d :: rest) = keywordLength (s ++ paren (d = '(')) := by
  refine keywordLength_congr fun word member => ?_
  obtain ⟨front, whole⟩ := keywords_delimiter d (isDelimiter_iff.mp delimits) word member
  by_cases opens : d = '('
  · subst opens
    exact Text.afterKeyword?_last front s rest
  · simp only [paren, opens, decide_false, Bool.false_eq_true, if_false, List.append_nil]
    exact Text.afterKeyword?_append (whole opens) s rest

theorem keywordLength_delimiter {d : CodePoint} (delimits : isDelimiter d) (rest : Text) :
    keywordLength (d :: rest) = 0 := by
  have alone : ∀ called, keywordLength (paren called) = 0 := by decide
  rw [← List.nil_append (d :: rest), keywordLength_append delimits, List.nil_append, alone]

/-- Where no keyword starts before a place and ends behind it, the two sides are masked apart. -/
theorem blankKeywords_append {s rest : Text}
    (apart : ∀ part, part ≠ [] → part <:+ s → keywordLength (part ++ rest) = keywordLength part) :
    blankKeywords (s ++ rest) = blankKeywords s ++ blankKeywords rest := by
  fun_induction blankKeywords s with
  | case1 => rfl
  | case2 c s noKeyword ih =>
      have here := apart (c :: s) (by simp) List.suffix_rfl
      rw [List.cons_append] at here
      rw [List.cons_append, blankKeywords_cons (here.trans noKeyword),
        ih fun part filled inside => apart part filled (inside.trans (List.suffix_cons c s)), List.cons_append]
  | case3 c s more keyword ih =>
      have here := apart (c :: s) (by simp) List.suffix_rfl
      have within := keywordLength_le (c :: s)
      rw [keyword] at within here
      rw [List.cons_append] at here
      rw [List.cons_append, blankKeywords_keyword here, List.drop_append_of_le_length (Nat.le_of_succ_le_succ within),
        ih fun part filled inside =>
          apart part filled (inside.trans ((List.drop_suffix _ _).trans (List.suffix_cons c s))),
        List.append_assoc]

theorem blankKeywords_delimiter {d : CodePoint} (delimits : isDelimiter d) (rest : Text) :
    blankKeywords (d :: rest) = d :: blankKeywords rest := blankKeywords_cons (keywordLength_delimiter delimits rest)

theorem blankKeywords_length (s : Text) : (blankKeywords s).length = s.length :=
  (blankKeywords_blanked s).length_eq.symm

def maskedWord (letters : Text) (called : Bool) : Text := (blankKeywords (letters ++ paren called)).take letters.length

theorem maskedWord_blanked (letters : Text) (called : Bool) :
    List.Forall₂ Blanked letters (maskedWord letters called) := by
  have front := List.forall₂_take letters.length (blankKeywords_blanked (letters ++ paren called))
  rwa [List.take_left'] at front
  rfl

theorem maskedWord_alone (letters : Text) : maskedWord letters false = blankKeywords letters := by
  rw [maskedWord, paren, if_neg (by decide), List.append_nil, List.take_of_length_le (blankKeywords_length letters).le]

/-- A delimiter that no keyword ends with keeps its two sides apart. -/
theorem blankKeywords_split {d : CodePoint} (delimits : isDelimiter d) (other : d ≠ '(') (s rest : Text) :
    blankKeywords (s ++ d :: rest) = blankKeywords s ++ d :: blankKeywords rest := by
  rw [blankKeywords_append, blankKeywords_delimiter delimits]
  intro part _ _
  rw [keywordLength_append delimits, paren, decide_eq_false other, if_neg (by decide), List.append_nil]

theorem blankKeywords_word {d : CodePoint} (delimits : isDelimiter d) (letters rest : Text) :
    ∃ masked, isDelimiter masked ∧
      blankKeywords (letters ++ d :: rest) = maskedWord letters (d = '(') ++ masked :: blankKeywords rest := by
  by_cases opens : d = '('
  · subst opens
    have apart : ∀ part, part ≠ [] → part <:+ letters ++ (['('] : Text) →
        keywordLength (part ++ rest) = keywordLength part := by
      intro part filled inside
      obtain empty | ⟨front, rfl, -⟩ := List.suffix_concat_iff.mp inside
      · exact absurd empty filled
      · rw [List.append_assoc, List.singleton_append, keywordLength_append delimits, keywordLength_append delimits]
    have last := List.forall₂_drop letters.length (blankKeywords_blanked (letters ++ (['('] : Text)))
    rw [List.drop_left'] at last
    · obtain ⟨masked, final, blank⟩ : ∃ masked,
        (blankKeywords (letters ++ (['('] : Text))).drop letters.length = [masked] ∧
          Blanked '(' masked := by
        cases rest : (blankKeywords (letters ++ (['('] : Text))).drop letters.length with
        | nil =>
            rw [rest] at last
            cases last
        | cons masked more =>
            rw [rest] at last
            obtain _ | ⟨first, none⟩ := last
            cases none
            exact ⟨masked, rfl, first⟩
      refine ⟨masked, by rcases blank with rfl | rfl <;> decide, ?_⟩
      have whole := List.take_append_drop letters.length (blankKeywords (letters ++ (['('] : Text)))
      rw [final] at whole
      rw [show letters ++ .char '(' :: rest = letters ++ [.char '('] ++ rest by simp,
        blankKeywords_append apart, ← whole,
        List.append_assoc]
      rfl
    · rfl
  · exact ⟨d, delimits, by rw [blankKeywords_split delimits opens, decide_eq_false opens, maskedWord_alone]⟩

theorem maskedWord_none {letters : Text} {called : Bool}
    (none : ∀ part, part <:+ letters → keywordLength (part ++ paren called) = 0) :
      maskedWord letters called = letters := by
  have whole : blankKeywords (letters ++ paren called) = letters ++ paren called := by
    refine blankKeywords_none fun part member => ?_
    cases called with
    | false =>
        simp only [paren, Bool.false_eq_true, if_false, List.append_nil, List.mem_tails] at member none
        exact none part member
    | true =>
        obtain rfl | ⟨front, rfl, inside⟩ := List.suffix_concat_iff.mp ((List.mem_tails _ _).mp member)
        · rfl
        · exact none front inside
  rw [maskedWord, whole, List.take_left']
  rfl

/-- The words that are keywords, and those that are keywords where an opening parenthesis follows. -/
def isKeyword (letters : Text) (called : Bool) : Bool :=
  (["endif", "endfor"] : List Text).any (Text.afterKeyword? · letters = some []) ||
    called && (["foreach", "if"] : List Text).any (Text.afterKeyword? · letters = some [])

theorem keywordLength_starts {word s : Text} (member : word ∈ keywords) (starts : (Text.afterKeyword? word s).isSome) :
    keywordLength s = word.length := by
  have ascii : ∀ word ∈ keywords, ∀ letter ∈ word, letter.toNat < 128 := by decide
  have distinct : ∀ first ∈ keywords, ∀ second ∈ keywords, first <+: second → first = second := by decide
  rw [keywordLength]
  cases found : keywords.find? fun word => (Text.afterKeyword? word s).isSome with
  | none => exact absurd starts (List.find?_eq_none.mp found word member)
  | some first =>
      have among := List.mem_of_find?_eq_some found
      have startsToo := List.find?_some (p := fun word => (Text.afterKeyword? word s).isSome) found
      have same : first = word := by
        rcases Nat.le_total first.length word.length with shorter | shorter
        · refine distinct first among word member (Text.afterKeyword?_prefix startsToo starts ?_ shorter)
          exact fun letter inside =>
            (List.mem_append.mp inside).elim (ascii first among letter) (ascii word member letter)
        · refine (distinct word member first among (Text.afterKeyword?_prefix starts startsToo ?_ shorter)).symm
          exact fun letter inside =>
            (List.mem_append.mp inside).elim (ascii word member letter) (ascii first among letter)
      rw [same]
      rfl

theorem maskedWord_keyword {letters : Text} {called : Bool} (keyword : isKeyword letters called = true) :
    maskedWord letters called = spaces letters.length := by
  obtain ⟨base, opening, member, filled, whole, open_⟩ : ∃ base opening : Text, base ++ opening ∈ keywords ∧ base ≠ [] ∧
      Text.afterKeyword? base letters = some [] ∧ (Text.afterKeyword? opening (paren called)).isSome := by
    simp only [isKeyword, List.any_cons, List.any_nil, Bool.or_false, Bool.or_eq_true, Bool.and_eq_true,
      decide_eq_true_eq] at keyword
    rcases keyword with (found | found) | ⟨rfl, found | found⟩
    · exact ⟨"endif", [], by decide, by decide, found, rfl⟩
    · exact ⟨"endfor", [], by decide, by decide, found, rfl⟩
    · exact ⟨"foreach", [.char '('], by decide, by decide, found, rfl⟩
    · exact ⟨"if", [.char '('], by decide, by decide, found, rfl⟩
  have starts : (Text.afterKeyword? (base ++ opening) (letters ++ paren called)).isSome := by
    rwa [Text.afterKeyword?_concat whole, List.nil_append]
  have length := keywordLength_starts member starts
  have sameLength : letters.length = base.length := afterKeyword?_length whole
  have nonempty : letters ≠ [] := by
    rw [← List.length_pos_iff, sameLength]
    exact List.length_pos_of_ne_nil filled
  obtain ⟨c, rest, rfl⟩ := List.exists_cons_of_ne_nil nonempty
  obtain ⟨more, positive⟩ : ∃ more, base.length + opening.length = more + 1 :=
    Nat.exists_eq_add_one.mpr (Nat.add_pos_left (List.length_pos_of_ne_nil filled) _)
  rw [List.length_append, positive, List.cons_append] at length
  have enough : (c :: rest).length ≤ more + 1 := by omega
  rw [maskedWord, List.cons_append, blankKeywords_keyword length,
    List.take_append_of_le_length (by rwa [spaces, List.length_replicate]), spaces, List.take_replicate,
    Nat.min_eq_left enough, spaces]

theorem visible_unmasked {s masked : Text} (blanked : List.Forall₂ Blanked s masked) {c : CodePoint}
    (member : c ∈ masked)
    (visible : c ≠ ' ') : c ∈ s := by
  induction blanked with
  | nil => cases member
  | cons first rest ih =>
      rcases List.mem_cons.mp member with rfl | inside
      · rw [first.resolve_right visible]
        exact List.mem_cons_self ..
      · exact List.mem_cons_of_mem _ (ih inside)

theorem blankKeywords_front {s front rest : Text} (whole : blankKeywords s = front ++ rest)
    (visible : .char ' ' ∉ front) :
    ∃ later, s = front ++ later ∧ blankKeywords later = rest := by
  induction front generalizing s with
  | nil => exact ⟨s, rfl, whole⟩
  | cons c front ih =>
      simp only [List.mem_cons, not_or] at visible
      obtain _ | ⟨first, s⟩ := s
      · rw [blankKeywords_nil] at whole
        cases whole
      · cases start : keywordLength (first :: s) with
        | zero =>
            rw [blankKeywords_cons start, List.cons_append, List.cons.injEq] at whole
            obtain ⟨later, rfl, masked⟩ := ih whole.2 visible.2
            exact ⟨later, by rw [whole.1, List.cons_append], masked⟩
        | succ more =>
            rw [blankKeywords_keyword start] at whole
            simp only [spaces, List.replicate_succ, List.cons_append, List.cons.injEq] at whole
            exact absurd whole.1 visible.1

theorem blankQuotes_front {spans : List Span} {front rest : Text} (whole : blankQuotes spans = front ++ rest)
    (visible : .char ' ' ∉ front) : ∃ later, spans = front.map Span.plain ++ later ∧ blankQuotes later = rest := by
  induction front generalizing spans with
  | nil => exact ⟨spans, rfl, whole⟩
  | cons c front ih =>
      simp only [List.mem_cons, not_or] at visible
      obtain _ | ⟨span, spans⟩ := spans
      · cases whole
      · obtain ⟨first, rfl⟩ | marked := span.plain_or_marked
        · rw [blankQuotes, List.cons_append, List.cons.injEq] at whole
          obtain ⟨later, rfl, masked⟩ := ih whole.2 visible.2
          exact ⟨later, by rw [whole.1, List.map_cons, List.cons_append], masked⟩
        · obtain ⟨first, text, read⟩ := List.exists_cons_of_ne_nil span.text_ne_nil
          rw [blankQuotes_cons marked, read, List.length_cons, spaces, List.replicate_succ, List.cons_append,
            List.cons_append, List.cons.injEq] at whole
          exact absurd whole.1 visible.1

theorem blankQuotes_blanked (spans : List Span) : List.Forall₂ Blanked (Span.flatten spans) (blankQuotes spans) := by
  induction spans with
  | nil => exact .nil
  | cons span rest ih =>
      obtain ⟨c, rfl⟩ | marked := span.plain_or_marked
      · exact .cons (.inl rfl) ih
      · rw [blankQuotes_cons marked]
        exact blanked_append (blanked_spaces span.text) ih

theorem keywordLength_eq_zero {s : Text} :
    keywordLength s = 0 ↔ ∀ word ∈ keywords, (Text.afterKeyword? word s).isSome = false := by
  have filled : ∀ word ∈ keywords, word.length ≠ 0 := by decide
  rw [keywordLength]
  cases found : keywords.find? fun word => (Text.afterKeyword? word s).isSome with
  | none => simpa using List.find?_eq_none.mp found
  | some word =>
      have member := List.mem_of_find?_eq_some found
      have starts := List.find?_some (p := fun word => (Text.afterKeyword? word s).isSome) found
      simp only [Option.map_some, Option.getD_some, filled word member, false_iff, not_forall]
      exact ⟨word, member, by simp [starts]⟩

theorem keywordLength_blanked {s masked : Text} (blanked : List.Forall₂ Blanked s masked) (none : keywordLength s = 0) :
    keywordLength masked = 0 := by
  have noSpace : ∀ word ∈ keywords, ∀ letter ∈ word, Text.standsFor letter ' ' = false := by decide
  rw [keywordLength_eq_zero] at none ⊢
  intro word member
  have before := none word member
  have letters := noSpace word member
  clear none member
  induction blanked generalizing word with
  | nil => exact before
  | @cons c blank s masked first rest ih =>
      cases word with
      | nil => exact before
      | cons letter more =>
          rw [Text.afterKeyword?] at before ⊢
          rw [List.forall_mem_cons] at letters
          rcases first with rfl | rfl
          · split
            · rename_i stands
              rw [if_pos stands] at before
              exact ih more before letters.2
            · rfl
          · rw [letters.1]
            rfl

end AliasTable

end CommandScript
