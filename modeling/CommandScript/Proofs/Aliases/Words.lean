import CommandScript.Proofs.Aliases.Keywords

/-! Aliases stand for whole words. A line consists of words, delimiters and quoted spans; a word that is no
keyword and does not stand in the name part of an alias definition is replaced by the first alias of its name,
and all else is kept.

Keywords are looked for in the text, not among the words: one that stands in a longer word takes that word
apart, and one right after `alias` at the start of a line, like a quoted span there, is taken for the space of a
definition. -/

namespace CommandScript

namespace AliasTable

inductive Part where
  | word (letters : Text)
  | delimiter (c : CodePoint)
  | quoted (span : Span)
  deriving DecidableEq, Repr

namespace Part

def text : Part → Text
  | word letters => letters
  | delimiter c => [c]
  | quoted span => span.text

def isWord : Part → Bool
  | word _ => true
  | _ => false

end Part

/-- The parts of a line. Its words are as long as they can be. -/
def parts : List Span → List Part
  | [] => []
  | .plain c :: rest =>
    if isDelimiter c then .delimiter c :: parts rest
    else
      match parts rest with
      | .word letters :: more => .word (c :: letters) :: more
      | more => .word [c] :: more
  | span :: rest => .quoted span :: parts rest

def opens (rest : List Part) : Bool := rest.head? = some (.delimiter '(')

def meaning (tables : List AliasTable) (name : Text) : Text :=
  ((tables.flatten.find? (Alias.answers name)).map (·.value)).getD name

def rewriteParts (tables : List AliasTable) : List Part → Text
  | [] => []
  | .word letters :: rest =>
    (if isKeyword letters (opens rest) then letters else meaning tables letters) ++ rewriteParts tables rest
  | part :: rest => part.text ++ rewriteParts tables rest

def isDefinition (line : Text) : Bool := Text.lower (line.take 6) = "alias "

/-- The line with its words replaced. Of an alias definition everything before the equals sign, or all of it if there is
none, is kept. -/
def rewritten (tables : List AliasTable) (line : Text) : Text :=
  let all := parts (Span.scan line)
  if isDefinition line then
    (all.takeWhile (· ≠ .delimiter '=')).flatMap Part.text ++ rewriteParts tables (all.dropWhile (· ≠ .delimiter '='))
  else rewriteParts tables all

structure Word where
  letters : Text
  called : Bool
  deriving DecidableEq, Repr

def words : List Part → List Word
  | [] => []
  | .word letters :: rest => ⟨letters, opens rest⟩ :: words rest
  | _ :: rest => words rest

namespace Word

/-- A keyword starts within the word, but is not all of it. -/
def HidesKeyword (word : Word) : Prop :=
  isKeyword word.letters word.called = false ∧
    ∃ part ∈ word.letters.tails, keywordLength (part ++ paren word.called) ≠ 0

def remains (word : Word) : List Text := ((maskedWord word.letters word.called).splitOnP isDelimiter).filter (· ≠ [])

instance (word : Word) : Decidable word.HidesKeyword := inferInstanceAs (Decidable (_ ∧ _))

end Word

/-- No keyword gets in the way of aliases: a word with a keyword in it is no name of an alias, nor is what is left of it
between its keywords; and a line that starts with `alias` does not go on with a quoted span or a keyword. -/
structure KeywordsApart (tables : List AliasTable) (line : Text) : Prop where
  inside : ∀ word ∈ words (parts (Span.scan line)), word.HidesKeyword →
    ∀ name ∈ word.letters :: word.remains, Lacks tables name
  start : Text.lower (line.take 5) = "alias" →
    keywordLength (line.drop 5) = 0 ∧ (line.drop 5).head?.any Quote.isOpening = false

/-! ### The parts of a line -/

def Part.blank : Part → Text
  | word letters => letters
  | delimiter c => [c]
  | quoted span => spaces span.text.length

inductive Parted : List Part → Prop
  | nil : Parted []
  | word {letters : Text} {rest : List Part} : letters ≠ [] → (∀ c ∈ letters, isDelimiter c = false) →
      rest.head?.all (!·.isWord) → Parted rest → Parted (.word letters :: rest)
  | delimiter {c : CodePoint} {rest : List Part} : isDelimiter c = true → Parted rest → Parted (.delimiter c :: rest)
  | quoted {span : Span} {rest : List Part} : span.isPlain = false → Parted rest → Parted (.quoted span :: rest)

theorem parts_cons {span : Span} (marked : span.isPlain = false) (rest : List Span) :
    parts (span :: rest) = .quoted span :: parts rest := by
  cases span with
  | plain c => cases marked
  | quoted quote body => rfl
  | unclosed quote body => rfl

theorem parts_parted (spans : List Span) : Parted (parts spans) := by
  induction spans with
  | nil => exact .nil
  | cons span rest ih =>
      obtain ⟨c, rfl⟩ | marked := span.plain_or_marked
      · rw [parts]
        split
        · rename_i delimits
          exact .delimiter delimits ih
        · rename_i inWord
          rw [Bool.not_eq_true] at inWord
          split
          · rename_i letters more whole
            rw [whole] at ih
            obtain _ | ⟨_, plain, last, later⟩ := ih
            exact .word (by simp) (by simpa using ⟨inWord, plain⟩) last later
          · rename_i other
            refine .word (by simp) (by simpa using inWord) ?_ ih
            cases whole : parts rest with
            | nil => rfl
            | cons part more =>
                cases part with
                | word letters => exact absurd whole (other letters more)
                | delimiter c => rfl
                | quoted span => rfl
      · rw [parts_cons marked]
        exact .quoted marked ih

/-- What is read off the parts does not depend on how plain characters are joined into words. -/
theorem parts_flatMap {read : Part → Text} (word : ∀ letters, read (.word letters) = letters)
    (delimiter : ∀ c, read (.delimiter c) = [c]) (c : CodePoint) (rest : List Span) :
    (parts (.plain c :: rest)).flatMap read = c :: (parts rest).flatMap read := by
  rw [parts]
  split
  · rw [List.flatMap_cons, delimiter, List.singleton_append]
  · split
    · rename_i letters more whole
      rw [whole, List.flatMap_cons, List.flatMap_cons, word, word, List.cons_append]
    · rw [List.flatMap_cons, word, List.singleton_append]

theorem parts_text (spans : List Span) : (parts spans).flatMap Part.text = Span.flatten spans := by
  induction spans with
  | nil => rfl
  | cons span rest ih =>
      obtain ⟨c, rfl⟩ | marked := span.plain_or_marked
      · rw [parts_flatMap (fun _ => rfl) (fun _ => rfl), ih]
        rfl
      · rw [parts_cons marked, List.flatMap_cons, ih]
        rfl

theorem parts_blank (spans : List Span) : (parts spans).flatMap Part.blank = blankQuotes spans := by
  induction spans with
  | nil => rfl
  | cons span rest ih =>
      obtain ⟨c, rfl⟩ | marked := span.plain_or_marked
      · rw [parts_flatMap (fun _ => rfl) (fun _ => rfl), ih]
        rfl
      · rw [parts_cons marked, List.flatMap_cons, ih, blankQuotes_cons marked]
        rfl

/-! ### One word -/

section word

variable {tables : List AliasTable}

theorem replacement_eq {name : Text} (filled : name ≠ []) (tables : List AliasTable) :
    replacement (tables.filter (· ≠ [])) name = meaning tables name := by
  have first : (tables.filter (· ≠ [])).findSome? (find? · name) = tables.flatten.find? (Alias.answers name) := by
    rw [← List.flatten_filter_ne_nil, List.find?_flatten]
    rfl
  rw [replacement, if_neg (by simpa using filled), first, meaning]

theorem meaning_lacking {name : Text} (lacks : Lacks tables name) : meaning tables name = name := by
  have missing : tables.flatten.find? (Alias.answers name) = none := by
    rw [List.find?_flatten, List.findSome?_eq_none_iff]
    intro table member
    simpa [has, find?] using lacks_iff.mp lacks table member
  rw [meaning, missing]
  rfl

theorem substitute_whole {letters : Text} (plain : ∀ c ∈ letters, isDelimiter c = false) (before : Text) :
    substitute tables before (letters.zip letters) = replacement tables (before ++ letters) := by
  induction letters generalizing before with
  | nil => rw [List.zip_nil_left, substitute, List.append_nil]
  | cons c letters ih =>
      rw [List.forall_mem_cons] at plain
      rw [List.zip_cons_cons, substitute, if_neg (by simp [plain.1]), ih plain.2, List.append_assoc,
        List.singleton_append]

/-- Where no piece of the mask is the name of an alias, nothing is replaced. -/
theorem substitute_pieces {s masked : Text} (blanked : List.Forall₂ Blanked s masked) {before : Text}
    (plain : ∀ c ∈ before, isDelimiter c = false)
    (lacks : ∀ piece ∈ (before ++ masked).splitOnP isDelimiter, piece ≠ [] → Lacks tables piece) :
    substitute tables before (s.zip masked) = before ++ s := by
  induction blanked generalizing before with
  | nil =>
      rw [List.append_nil, List.splitOnP_eq_singleton plain, List.forall_mem_singleton] at lacks
      rw [List.zip_nil_left, substitute, replacement_lacking lacks, List.append_nil]
  | @cons c blank s masked first rest ih =>
      rw [List.zip_cons_cons, substitute]
      split
      · rename_i delimits
        rw [List.splitOnP_append_cons _ _ delimits, List.splitOnP_eq_singleton plain, List.singleton_append,
          List.forall_mem_cons] at lacks
        rw [replacement_lacking lacks.1, ih (fun c member => absurd member List.not_mem_nil) lacks.2, List.nil_append]
      · rename_i inWord
        obtain rfl : blank = c := first.resolve_right fun isBlank => inWord (isBlank ▸ by decide)
        rw [ih ?_ ?_, List.append_assoc, List.singleton_append]
        · intro c member
          rcases List.mem_append.mp member with inside | last
          · exact plain c inside
          · rw [List.mem_singleton.mp last]
            exact Bool.not_eq_true _ ▸ inWord
        · rwa [List.append_assoc, List.singleton_append]

theorem lacks_filter {name : Text} : Lacks (tables.filter (· ≠ [])) name ↔ Lacks tables name := by
  rw [Lacks, Lacks, names, names, List.flatten_filter_ne_nil]

theorem substitute_word {word : Word} (filled : word.letters ≠ []) (plain : ∀ c ∈ word.letters, isDelimiter c = false)
    (apart : word.HidesKeyword → ∀ name ∈ word.letters :: word.remains, Lacks tables name) :
    substitute (tables.filter (· ≠ [])) [] (word.letters.zip (maskedWord word.letters word.called)) =
      if isKeyword word.letters word.called then word.letters else meaning tables word.letters := by
  have blanked := maskedWord_blanked word.letters word.called
  split
  · rename_i keyword
    have blanks : ∀ pair ∈ word.letters.zip (maskedWord word.letters word.called), isDelimiter pair.2 = true := by
      intro pair member
      have blank := (List.of_mem_zip member).2
      rw [maskedWord_keyword keyword] at blank
      rw [List.eq_of_mem_replicate blank]
      rfl
    rw [substitute_masked _ blanks, List.map_fst_zip blanked.length_eq.le]
  · rename_i other
    by_cases hidden : ∃ part ∈ word.letters.tails, keywordLength (part ++ paren word.called) ≠ 0
    · have lacks := apart ⟨Bool.not_eq_true _ ▸ other, hidden⟩
      rw [List.forall_mem_cons] at lacks
      rw [meaning_lacking lacks.1, substitute_pieces blanked (fun c member => absurd member List.not_mem_nil),
        List.nil_append]
      exact fun piece member filled =>
        lacks_filter.mpr (lacks.2 piece (List.mem_filter.mpr ⟨member, by simpa using filled⟩))
    · simp only [not_exists, not_and, not_not, List.mem_tails] at hidden
      rw [maskedWord_none hidden, substitute_whole plain, List.nil_append, replacement_eq filled]

end word

/-! ### Words in their places -/

section line

variable {tables : List AliasTable}

theorem substitute_delimiter {d masked : CodePoint} (delimits : isDelimiter masked)
    (pairs : List (CodePoint × CodePoint)) :
    substitute tables [] ((d, masked) :: pairs) = d :: substitute tables [] pairs :=
  @substitute_append tables [] [] pairs d masked delimits

theorem blankKeywords_quoted (n : Nat) (rest : Text) :
    blankKeywords (spaces n ++ rest) = spaces n ++ blankKeywords rest := by
  induction n with
  | zero => rfl
  | succ n ih =>
      rw [spaces, List.replicate_succ, List.cons_append, blankKeywords_delimiter rfl, ← spaces, ih, List.cons_append]

theorem Parted.after_word {rest : List Part} (parted : Parted rest) (noWord : rest.head?.all (!·.isWord)) :
    rest = [] ∨ ∃ c d text blank, rest.flatMap Part.text = c :: text ∧ rest.flatMap Part.blank = d :: blank ∧
      isDelimiter d = true ∧ opens rest = decide (d = '(') := by
  cases parted with
  | nil => exact .inl rfl
  | word => cases noWord
  | @delimiter c rest delimits later =>
      refine .inr ⟨c, c, rest.flatMap Part.text, rest.flatMap Part.blank, rfl, rfl, delimits, ?_⟩
      simp [opens]
  | @quoted span rest marked later =>
      obtain ⟨c, text, whole⟩ := List.exists_cons_of_ne_nil span.text_ne_nil
      refine .inr ⟨c, ' ', text ++ rest.flatMap Part.text, spaces text.length ++ rest.flatMap Part.blank, ?_,
        ?_, rfl, ?_⟩
      · rw [List.flatMap_cons, Part.text, whole, List.cons_append]
      · rw [List.flatMap_cons, Part.blank, whole, List.length_cons, spaces, List.replicate_succ,
          List.cons_append, ← spaces]
      · simp [opens]

theorem substitute_parts {all : List Part} (parted : Parted all)
    (apart : ∀ word ∈ words all, word.HidesKeyword → ∀ name ∈ word.letters :: word.remains, Lacks tables name) :
    substitute (tables.filter (· ≠ [])) [] ((all.flatMap Part.text).zip (blankKeywords (all.flatMap Part.blank))) =
      rewriteParts tables all := by
  induction parted with
  | nil => rfl
  | @word letters rest filled plain noWord later ih =>
      rw [words, List.forall_mem_cons] at apart
      have here := @substitute_word tables ⟨letters, opens rest⟩ filled plain apart.1
      have after := ih apart.2
      rw [rewriteParts, ← here, ← after, List.flatMap_cons, List.flatMap_cons, Part.text, Part.blank]
      obtain rfl | ⟨c, d, text, blank, readText, readBlank, delimits, called⟩ := later.after_word noWord
      · rw [List.flatMap_nil, List.flatMap_nil, List.append_nil, show opens [] = false from rfl, maskedWord_alone,
          List.zip_nil_left, substitute, replacement_nil, List.append_nil]
      · obtain ⟨masked, ends, split⟩ := blankKeywords_word delimits letters blank
        have length := (maskedWord_blanked letters (d = '(')).length_eq
        rw [readText, readBlank, split, List.zip_append length, List.zip_cons_cons, substitute_append ends, called,
          blankKeywords_delimiter delimits, List.zip_cons_cons, substitute_delimiter delimits]
  | @delimiter c rest delimits later ih =>
      change _ = c :: rewriteParts tables rest
      rw [← ih apart, List.flatMap_cons, List.flatMap_cons, Part.text, Part.blank, List.singleton_append,
        List.singleton_append, blankKeywords_delimiter delimits, List.zip_cons_cons, substitute_delimiter delimits]
  | @quoted span rest marked later ih =>
      change _ = span.text ++ rewriteParts tables rest
      rw [← ih apart, List.flatMap_cons, List.flatMap_cons, Part.text, Part.blank, blankKeywords_quoted,
        substitute_blank span.text_ne_nil, replacement_nil, List.nil_append]

end line

/-! ### Definitions -/

theorem toLower_space {c : CodePoint} (small : c.toLower = ' ') : c = ' ' := by
  have ascii : ∀ n : Fin 128, (CodePoint.ofNat n).toLower = ' ' → CodePoint.ofNat n = ' ' := by decide +kernel
  have known := ascii ⟨c.toNat, Text.toLower_eq small (by decide)⟩
  rw [CodePoint.ofNat_toNat] at known
  exact known small

theorem lower_definition {s : Text} :
    Text.lower s = "alias " ↔ ∃ start : Text, s = start ++ ([' '] : Text) ∧
      start.map CodePoint.toLower = ("alias" : Text) := by
  constructor
  · intro lowered
    have letters := Text.lower_eq_ascii lowered (by decide)
    obtain ⟨start, last, rfl, front, back⟩ :=
      List.map_eq_append_iff.mp (letters.trans (show _ = ("alias" : Text) ++ [.char ' '] from rfl))
    obtain ⟨c, rest, rfl, small, none⟩ := List.map_eq_cons_iff.mp back
    obtain rfl := List.map_eq_nil_iff.mp none
    exact ⟨start, by rw [toLower_space small], front⟩
  · rintro ⟨start, rfl, front⟩
    have plain : ∀ small ∈ ("alias" : Text), small.toNat < 128 := by decide
    rw [Text.lower_map, List.map_append, front]
    · rfl
    · intro c member
      rcases List.mem_append.mp member with inside | last
      · exact Text.toLower_eq rfl (plain _ (front ▸ List.mem_map_of_mem inside))
      · obtain rfl := List.mem_singleton.mp last
        decide

section definition

variable {start : Text} (front : start.map CodePoint.toLower = ("alias" : Text))

include front

theorem start_length : start.length = 5 := by
  rw [← List.length_map CodePoint.toLower, front]
  rfl

theorem start_visible : .char ' ' ∉ start := fun member =>
  absurd (front ▸ List.mem_map_of_mem member : CodePoint.toLower (.char ' ') ∈ ("alias" : Text)) (by decide)

theorem start_unquoted : start.Unquoted := by
  intro c member
  cases opens : Quote.of? c with
  | none => rfl
  | some quote =>
      obtain rfl := Quote.of?_eq_some opens
      have inside : quote.opening.toLower ∈ ("alias" : Text) := front ▸ List.mem_map_of_mem member
      revert inside
      cases quote <;> decide

theorem lower_start : Text.lower start = "alias" := by
  have plain : ∀ small ∈ ("alias" : Text), small.toNat < 128 := by decide
  rw [Text.lower_map fun c member => Text.toLower_eq rfl (plain _ (front ▸ List.mem_map_of_mem member)), front]

theorem start_keywords : blankKeywords start = start := by
  have everyF : ∀ word ∈ keywords, .char 'f' ∈ word := by decide
  refine blankKeywords_none fun part member => keywordLength_eq_zero.mpr fun word among => ?_
  rw [Bool.eq_false_iff]
  intro starts
  obtain ⟨c, inside, stands⟩ := Text.afterKeyword?_letters starts 'f' (everyF word among)
  have small := (Text.lower_standsFor stands (by decide) (by decide) (by decide) (by decide)).2
  have found := List.mem_map_of_mem (f := CodePoint.toLower) (((List.mem_tails _ _).mp member).subset inside)
  rw [front, small] at found
  exact absurd found (by decide)

end definition

theorem isDefinition_masked {line : Text} (apart : Text.lower (line.take 5) = "alias" →
      keywordLength (line.drop 5) = 0 ∧ (line.drop 5).head?.any Quote.isOpening = false) :
    Text.lower ((blankKeywords (blankQuotes (Span.scan line))).take 6) = "alias " ↔ isDefinition line = true := by
  rw [isDefinition, decide_eq_true_iff]
  constructor
  · intro masked
    obtain ⟨start, taken, front⟩ := lower_definition.mp masked
    have length := start_length front
    have whole := List.take_append_drop 6 (blankKeywords (blankQuotes (Span.scan line)))
    rw [taken, List.append_assoc, List.singleton_append] at whole
    obtain ⟨later, blanked, rest⟩ := blankKeywords_front whole.symm (start_visible front)
    obtain ⟨spans, read, rfl⟩ := blankQuotes_front blanked (start_visible front)
    have text : line = start ++ Span.flatten spans := by
      rw [← Span.flatten_scan line, read, Span.flatten, List.flatMap_append, List.flatMap_map]
      simp [Span.text, Span.flatten]
    rw [text, ← length, List.take_left, List.drop_left] at apart
    obtain ⟨noKeyword, noQuote⟩ := apart (lower_start front)
    rw [text]
    obtain _ | ⟨span, spans⟩ := spans
    · rw [blankQuotes, blankKeywords_nil] at rest
      cases rest
    obtain ⟨c, rfl⟩ | marked := span.plain_or_marked
    · have keywordless := keywordLength_blanked (blankQuotes_blanked (.plain c :: spans)) noKeyword
      rw [blankQuotes] at rest keywordless
      rw [blankKeywords_cons keywordless, List.cons.injEq] at rest
      refine lower_definition.mpr ⟨start, ?_, front⟩
      rw [Span.flatten, List.flatMap_cons, Span.text, rest.1, List.singleton_append, List.append_cons,
        List.take_left' (by rw [List.length_append, length, List.length_singleton])]
    · obtain ⟨quote, more, read⟩ := span.opening_first marked
      simp [Span.flatten, read, Quote.isOpening, Quote.of?_opening] at noQuote
  · intro definition
    obtain ⟨start, taken, front⟩ := lower_definition.mp definition
    have length := start_length front
    have whole := List.take_append_drop 6 line
    rw [taken, List.append_assoc, List.singleton_append] at whole
    rw [← whole, Span.scan_append (start_unquoted front), Text.scan_plain rfl, blankQuotes_append, blankQuotes,
      blankKeywords_split rfl (by decide), start_keywords front, List.append_cons,
      List.take_left' (by rw [List.length_append, length, List.length_singleton])]
    exact lower_definition.mpr ⟨start, rfl, front⟩

/-! ### The whole line -/

section line

variable {tables : List AliasTable}

theorem Parted.suffix {all rest : List Part} (parted : Parted all) (inside : rest <:+ all) : Parted rest := by
  obtain ⟨front, rfl⟩ := inside
  induction front with
  | nil => exact parted
  | cons part front ih => exact ih (by cases parted <;> assumption)

theorem words_suffix {all rest : List Part} (inside : rest <:+ all) : words rest ⊆ words all := by
  obtain ⟨front, rfl⟩ := inside
  induction front with
  | nil => exact List.Subset.refl _
  | cons part front ih =>
      cases part with
      | word letters => exact fun word member => List.mem_cons_of_mem _ (ih member)
      | delimiter c => exact ih
      | quoted span => exact ih

theorem Parted.blank_equals {all : List Part} (parted : Parted all) {part : Part} (member : part ∈ all)
    (equals : .char '=' ∈ part.blank) : part = .delimiter '=' := by
  induction parted with
  | nil => cases member
  | @word letters rest filled plain noWord later ih =>
      rcases List.mem_cons.mp member with rfl | inside
      · exact absurd (plain '=' equals) (by decide)
      · exact ih inside
  | delimiter delimits later ih =>
      rcases List.mem_cons.mp member with rfl | inside
      · rw [List.mem_singleton.mp equals]
      · exact ih inside
  | quoted marked later ih =>
      rcases List.mem_cons.mp member with rfl | inside
      · exact absurd (List.eq_of_mem_replicate equals) (by decide)
      · exact ih inside

theorem blank_length (all : List Part) : (all.flatMap Part.blank).length = (all.flatMap Part.text).length := by
  induction all with
  | nil => rfl
  | cons part rest ih =>
      rw [List.flatMap_cons, List.flatMap_cons, List.length_append, List.length_append, ih]
      cases part <;> simp [Part.blank, Part.text, spaces]

theorem substitute_front (part rest more : Text) :
    substitute tables [] ((part ++ rest).zip (spaces part.length ++ more)) =
      part ++ substitute tables [] (rest.zip more) := by
  by_cases empty : part = []
  · subst empty
    rfl
  · rw [substitute_blank empty, replacement_nil, List.nil_append]

theorem apply_substitute (tables : List AliasTable) (line : Text) :
    apply tables line = substitute (tables.filter (· ≠ [])) [] (line.zip (mask line)) := by
  rw [apply]
  split
  · rename_i none
    rw [List.isEmpty_iff.mp none]
    exact (substitute_lacking fun _ _ _ => lacks_iff.mpr fun _ member => absurd member List.not_mem_nil).symm
  · rfl

/-- The parts up to the equals sign have no equals sign in them, and the rest starts with one. -/
theorem Parted.split_equals {all : List Part} (parted : Parted all) :
    ∃ name rest, all.takeWhile (· ≠ .delimiter '=') = name ∧ all.dropWhile (· ≠ .delimiter '=') = rest ∧
      all = name ++ rest ∧
      .char '=' ∉ name.flatMap Part.blank ∧ (rest = [] ∨ ∃ more, rest = .delimiter '=' :: more) := by
  refine ⟨_, _, rfl, rfl, List.takeWhile_append_dropWhile.symm, ?_, ?_⟩
  · intro equals
    obtain ⟨part, member, inside⟩ := List.mem_flatMap.mp equals
    have same := parted.blank_equals ((List.takeWhile_prefix _).subset member) inside
    simpa [same] using List.mem_takeWhile_imp member
  · cases whole : all.dropWhile (· ≠ .delimiter '=') with
    | nil => exact .inl rfl
    | cons part more =>
        have filled : all.dropWhile (· ≠ .delimiter '=') ≠ [] := whole ▸ List.cons_ne_nil part more
        have stops := List.head_dropWhile_not _ filled
        simp only [whole, List.head_cons] at stops
        exact .inr ⟨more, by simpa using stops⟩

theorem substitute_definition {all : List Part} (parted : Parted all)
    (apart : ∀ word ∈ words all, word.HidesKeyword → ∀ name ∈ word.letters :: word.remains, Lacks tables name)
    (definition : Text.lower ((blankKeywords (all.flatMap Part.blank)).take 6) = "alias ") :
    substitute (tables.filter (· ≠ [])) []
        ((all.flatMap Part.text).zip (blankDefinition (blankKeywords (all.flatMap Part.blank)))) =
      (all.takeWhile (· ≠ .delimiter '=')).flatMap Part.text ++
        rewriteParts tables (all.dropWhile (· ≠ .delimiter '=')) := by
  obtain ⟨name, rest, before, after, rfl, noEquals, starts⟩ := parted.split_equals
  have inside : rest <:+ name ++ rest := List.suffix_append name rest
  have value := substitute_parts (parted.suffix inside) fun word member => apart word (words_suffix inside member)
  rw [before, after, ← value, blankDefinition, if_pos definition]
  dsimp only
  have split : blankKeywords ((name ++ rest).flatMap Part.blank) =
      blankKeywords (name.flatMap Part.blank) ++ blankKeywords (rest.flatMap Part.blank) := by
    rw [List.flatMap_append]
    obtain rfl | ⟨more, rfl⟩ := starts
    · simp
    · rw [List.flatMap_cons, Part.blank, List.singleton_append, blankKeywords_split rfl (by decide),
        blankKeywords_delimiter rfl]
  have visible : ∀ c ∈ blankKeywords (name.flatMap Part.blank), c ≠ '=' := by
    rintro c member rfl
    exact noEquals (visible_unmasked (blankKeywords_blanked _) member (by decide))
  have front : (blankKeywords ((name ++ rest).flatMap Part.blank)).takeWhile (· ≠ .char '=') =
      blankKeywords (name.flatMap Part.blank) := by
    rw [split, List.takeWhile_append_of_pos (by simpa using visible)]
    obtain rfl | ⟨more, rfl⟩ := starts
    · simp
    · rw [List.flatMap_cons, Part.blank, List.singleton_append, blankKeywords_delimiter rfl]
      simp
  have length : (blankKeywords (name.flatMap Part.blank)).length = (name.flatMap Part.text).length := by
    rw [blankKeywords_length, blank_length]
  rw [front, split, List.drop_left, length, List.flatMap_append, substitute_front]

end line

/-- Aliases stand for whole words: where no keyword gets in their way, every word of the line that is no keyword
and stands in no name part of a definition is replaced by the value of the first alias of its name, and all else
is kept. -/
theorem apply_rewritten (tables : List AliasTable) (line : Text) (apart : KeywordsApart tables line) :
    apply tables line = rewritten tables line := by
  have parted := parts_parted (Span.scan line)
  have definition := isDefinition_masked apart.start
  have text := parts_text (Span.scan line)
  rw [Span.flatten_scan] at text
  rw [apply_substitute, rewritten, mask]
  rw [← parts_blank] at definition ⊢
  split
  · rename_i defines
    have replaced := substitute_definition parted apart.inside (definition.mpr defines)
    rwa [text] at replaced
  · rename_i other
    have replaced := substitute_parts parted apart.inside
    rw [blankDefinition, if_neg (other ∘ definition.mp)]
    rwa [text] at replaced

instance (tables : List AliasTable) (name : Text) : Decidable (Lacks tables name) := inferInstanceAs (Decidable (_ ∉ _))

/-- Words are replaced beside keywords, quoted spans and a keyword that hides in a word without an alias, and behind the
equals sign of a definition; but a keyword in a longer word gives up the rest of that word. -/
theorem rewritten_beside_keywords :
    let tables : List AliasTable := [[⟨"sta", "station"⟩, ⟨"if", "unless"⟩], [⟨"STA", "late"⟩, ⟨"not", "abc"⟩]]
    let line : Text := "elseif(Sta > 1) sta,if \"sta\"sta foreach(start)endif"
    (apply tables line = rewritten tables line ∧
      apply tables line = ("elseif(station > 1) station,unless \"sta\"station foreach(start)endif" : Text)) ∧
    (apply tables "Alias sta not=sta" = rewritten tables "Alias sta not=sta" ∧
      apply tables "Alias sta not=sta" = ("Alias sta not=station" : Text)) ∧
    (apply tables "notif(1)" = ("abcif(1)" : Text) ∧ rewritten tables "notif(1)" = ("notif(1)" : Text)) := by
  intro tables line
  refine ⟨⟨apply_rewritten tables line ⟨?_, ?_⟩, ?_⟩, ⟨apply_rewritten tables _ ⟨?_, ?_⟩, ?_⟩, ?_, ?_⟩
    <;> decide +kernel

end AliasTable

end CommandScript
