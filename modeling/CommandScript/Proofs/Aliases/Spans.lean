import CommandScript.Proofs.Aliases.Tables
import CommandScript.Proofs.Text.Spans
import Mathlib.Data.List.Forall2

/-! What stands in quotes or braces is out of reach of aliases. The mask of a line has a blank for each character of a
quoted span, and elsewhere the character itself or a blank; so only words of plain characters are looked up, and what
replaces them opens no quotes. -/

namespace CommandScript

namespace Text

/-- The quoted spans of a text from left to right, with their marks. -/
def quotedSpans (s : Text) : List Text := ((Span.scan s).filter (!·.isPlain)).map Span.text

/-- A part of the text that stands outside its quoted spans. -/
def Exposed (part s : Text) : Prop := part ≠ [] ∧ part.map Span.plain <:+: Span.scan s

theorem quotedSpans_append {before : Text} (unquoted : before.Unquoted) (rest : Text) :
    quotedSpans (before ++ rest) = quotedSpans rest := by
  have plain : (before.map Span.plain).filter (!·.isPlain) = [] := by
    simp [List.filter_eq_nil_iff, Span.isPlain]
  rw [quotedSpans, Span.scan_append unquoted, List.filter_append, plain, List.nil_append, quotedSpans]

end Text

namespace AliasTable

/-- A character of a line and that of its mask. -/
def Blanked (c masked : CodePoint) : Prop := masked = c ∨ masked = ' '

theorem blanked_spaces (s : Text) : List.Forall₂ Blanked s (spaces s.length) := by
  induction s with
  | nil => exact .nil
  | cons c rest ih => exact .cons (.inr rfl) ih

theorem blanked_append {s masked rest more : Text} (first : List.Forall₂ Blanked s masked)
    (second : List.Forall₂ Blanked rest more) : List.Forall₂ Blanked (s ++ rest) (masked ++ more) :=
  List.rel_append first second

theorem blanked_front {s masked : Text} (blanked : List.Forall₂ Blanked s masked) {n : Nat}
    (within : n ≤ masked.length) :
    List.Forall₂ Blanked s (spaces n ++ masked.drop n) := by
  induction blanked generalizing n with
  | nil =>
      obtain rfl := Nat.le_zero.mp within
      exact .nil
  | cons first rest ih =>
      cases n with
      | zero => exact .cons first rest
      | succ n => exact .cons (.inr rfl) (ih (Nat.le_of_succ_le_succ within))

theorem afterKeyword?_length {word s after : Text} (found : Text.afterKeyword? word s = some after) :
    s.length = word.length + after.length := by
  induction word generalizing s with
  | nil => rw [Option.some.inj found, List.length_nil, Nat.zero_add]
  | cons letter more ih =>
      cases s with
      | nil => cases found
      | cons c s =>
          rw [Text.afterKeyword?] at found
          split at found
          · rw [List.length_cons, ih found, List.length_cons, Nat.add_right_comm]
          · cases found

theorem keywordLength_le (s : Text) : keywordLength s ≤ s.length := by
  rw [keywordLength]
  cases found : keywords.find? fun word => (Text.afterKeyword? word s).isSome with
  | none => exact Nat.zero_le _
  | some word =>
      have starts := List.find?_some (p := fun word => (Text.afterKeyword? word s).isSome) found
      obtain ⟨after, starts⟩ := Option.isSome_iff_exists.mp starts
      exact afterKeyword?_length starts ▸ Nat.le_add_right _ _

theorem blankKeywords_blanked (s : Text) : List.Forall₂ Blanked s (blankKeywords s) := by
  fun_induction blankKeywords s with
  | case1 => exact .nil
  | case2 c rest noKeyword ih => exact .cons (.inl rfl) ih
  | case3 c rest more keyword ih =>
      have within := keywordLength_le (c :: rest)
      rw [keyword] at within
      have front : ((c :: rest).take (more + 1)).length = more + 1 := by rw [List.length_take, Nat.min_eq_left within]
      have blank := blanked_spaces ((c :: rest).take (more + 1))
      rw [front] at blank
      rw [← List.take_append_drop (more + 1) (c :: rest)]
      exact blanked_append blank ih

theorem blankDefinition_blanked {s masked : Text} (blanked : List.Forall₂ Blanked s masked) :
    List.Forall₂ Blanked s (blankDefinition masked) := by
  rw [blankDefinition]
  split
  · exact blanked_front blanked (List.takeWhile_prefix _).length_le
  · exact blanked

theorem mask_blanked (line : Text) : List.Forall₂ Blanked (blankQuotes (Span.scan line)) (mask line) :=
  blankDefinition_blanked (blankKeywords_blanked _)

theorem blanked_masked {n : Nat} {rest masked : Text} (blanked : List.Forall₂ Blanked (spaces n ++ rest) masked) :
    ∃ more, masked = spaces n ++ more ∧ List.Forall₂ Blanked rest more := by
  induction n generalizing masked with
  | zero => exact ⟨masked, rfl, blanked⟩
  | succ n ih =>
      cases blanked with
      | cons first later =>
          obtain ⟨more, rfl, inner⟩ := ih later
          obtain rfl := or_self_iff.mp first
          exact ⟨more, rfl, inner⟩

section substitute

variable {tables : List AliasTable} {word : Text}

theorem replacement_nil : replacement tables [] = [] := rfl

theorem substitute_append {pairs rest : List (CodePoint × CodePoint)} {c masked : CodePoint}
    (ends : isDelimiter masked) :
    substitute tables word (pairs ++ (c, masked) :: rest) =
      substitute tables word pairs ++ c :: substitute tables [] rest := by
  induction pairs generalizing word with
  | nil => simp only [List.nil_append, substitute, ends, if_true]
  | cons pair pairs ih =>
      rw [List.cons_append, substitute, substitute]
      split
      · rw [ih, List.append_assoc, List.cons_append]
      · rw [ih]

theorem substitute_blank {part rest more : Text} (filled : part ≠ []) :
    substitute tables word ((part ++ rest).zip (spaces part.length ++ more)) =
      replacement tables word ++ part ++ substitute tables [] (rest.zip more) := by
  induction part generalizing word with
  | nil => exact absurd rfl filled
  | cons c part ih =>
      rw [List.length_cons, spaces, List.replicate_succ, List.cons_append, List.cons_append, List.zip_cons_cons,
        substitute,
        if_pos (by decide)]
      cases part with
      | nil => simp
      | cons next part =>
          have inner := @ih [] (by simp)
          rw [spaces] at inner
          rw [inner, replacement_nil]
          simp

theorem blankQuotes_cons {span : Span} (marked : span.isPlain = false) (rest : List Span) :
    blankQuotes (span :: rest) = spaces span.text.length ++ blankQuotes rest := by
  cases span with
  | plain c => cases marked
  | quoted quote body => rfl
  | unclosed quote body => rfl

theorem replacement_lacking (lacks : word ≠ [] → Lacks tables word) : replacement tables word = word := by
  by_cases empty : word = []
  · rw [empty, replacement_nil]
  · exact replacement_kept (lacks_iff.mp (lacks empty))

theorem substitute_exposed {spans : List Span} {masked : Text}
    (lacks : ∀ part : Text, part ≠ [] → part.map Span.plain <:+: word.map Span.plain ++ spans → Lacks tables part)
    (blanked : List.Forall₂ Blanked (blankQuotes spans) masked) :
    substitute tables word ((Span.flatten spans).zip masked) = word ++ Span.flatten spans := by
  induction spans generalizing word masked with
  | nil =>
      cases blanked
      have kept := replacement_lacking fun filled => lacks word filled ⟨[], [], rfl⟩
      exact kept.trans (List.append_nil word).symm
  | cons span rest ih =>
      have kept := replacement_lacking fun filled => lacks word filled ⟨[], span :: rest, rfl⟩
      have later {more : Text} (inner : List.Forall₂ Blanked (blankQuotes rest) more) :
          substitute tables [] ((Span.flatten rest).zip more) = Span.flatten rest := by
        refine ih (fun part filled inside => lacks part filled (inside.trans ?_)) inner
        exact ⟨word.map Span.plain ++ [span], [], by simp⟩
      obtain ⟨c, rfl⟩ | marked := span.plain_or_marked
      · obtain _ | @⟨_, blank, _, more, first, inner⟩ := blanked
        rw [show Span.flatten (.plain c :: rest) = c :: Span.flatten rest from rfl, List.zip_cons_cons, substitute]
        split
        · rw [kept, later inner]
        · rename_i inWord
          -- a blank would end the word, so the character is not masked
          obtain rfl : blank = c := first.resolve_right fun isBlank => inWord (isBlank ▸ by decide)
          rw [ih _ inner, List.append_assoc, List.singleton_append]
          simpa using lacks
      · rw [blankQuotes_cons marked] at blanked
        obtain ⟨more, rfl, inner⟩ := blanked_masked blanked
        rw [Span.flatten, List.flatMap_cons, substitute_blank span.text_ne_nil, kept, ← Span.flatten, later inner,
          List.append_assoc]

/-- A line is kept if no part of it outside its quoted spans is the name of an alias. -/
theorem substitute_lacking {line : Text}
    (lacks : ∀ part : Text, part ≠ [] → part.map Span.plain <:+: Span.scan line → Lacks tables part) :
    substitute tables [] (line.zip (mask line)) = line := by
  have kept : substitute tables [] ((Span.flatten (Span.scan line)).zip (mask line)) =
      [] ++ Span.flatten (Span.scan line) :=
    substitute_exposed lacks (mask_blanked line)
  rwa [List.nil_append, Span.flatten_scan] at kept

theorem replacement_unquoted (checked : ∀ table ∈ tables, ∀ entry ∈ table, entry.value.Unquoted)
    (unquoted : word.Unquoted) : (replacement tables word).Unquoted := by
  rw [replacement]
  split
  · exact fun c member => absurd member List.not_mem_nil
  · cases found : tables.findSome? (find? · word) with
    | none => exact unquoted
    | some entry =>
        obtain ⟨table, inside, first⟩ := List.exists_of_findSome?_eq_some found
        exact checked table inside entry (List.mem_of_find?_eq_some first)

/-- The quoted spans of a line are those of the line in which its words are replaced. -/
theorem substitute_quotedSpans (checked : ∀ table ∈ tables, ∀ entry ∈ table, entry.value.Unquoted) (line : Text)
    {masked : Text} (blanked : List.Forall₂ Blanked (blankQuotes (Span.scan line)) masked) (unquoted : word.Unquoted) :
    Text.quotedSpans (substitute tables word (line.zip masked)) = Text.quotedSpans line := by
  -- neither a word nor what it is replaced by opens a quoted span
  have untouched {word : Text} (unquoted : word.Unquoted) (rest : Text) :
      Text.quotedSpans (replacement tables word ++ rest) = Text.quotedSpans rest :=
    Text.quotedSpans_append (replacement_unquoted checked unquoted) rest
  have start : Text.Unquoted [] := fun c member => absurd member List.not_mem_nil
  induction line using Span.scanWith.induct Quote.of? generalizing word masked with
  | case1 =>
      cases masked <;> simpa [substitute] using untouched unquoted []
  | case2 c rest noQuote ih =>
      have plain : Text.Unquoted [c] := by simpa [Text.Unquoted]
      have passed (rest : Text) : Text.quotedSpans (c :: rest) = Text.quotedSpans rest :=
        Text.quotedSpans_append plain rest
      rw [Text.scan_plain noQuote, blankQuotes] at blanked
      obtain _ | @⟨_, blank, _, more, first, inner⟩ := blanked
      rw [List.zip_cons_cons, substitute, passed]
      split
      · rw [untouched unquoted, passed, ih inner start]
      · rename_i inWord
        obtain rfl : blank = c := first.resolve_right fun isBlank => inWord (isBlank ▸ by decide)
        refine ih inner fun other member => ?_
        exact (List.mem_append.mp member).elim (unquoted other) (plain other)
  | case3 c rest quote opens missing =>
      obtain rfl := Quote.of?_eq_some opens
      rw [Text.scan_unclosed missing, blankQuotes_cons rfl] at blanked
      obtain ⟨more, rfl, inner⟩ := blanked_masked blanked
      have replaced := @substitute_blank tables word (Span.unclosed quote rest).text [] more (Span.text_ne_nil _)
      rw [List.append_nil, Span.text] at replaced
      rw [Span.text, replaced, List.append_assoc, untouched unquoted]
      simp [substitute, replacement_nil]
  | case4 c rest quote opens body after found ih =>
      obtain rfl := Quote.of?_eq_some opens
      obtain rfl := Text.cut?_append found
      have clear := Text.cut?_before found
      have whole (after : Text) : quote.opening :: (body ++ quote.closing :: after) =
          (Span.quoted quote body).text ++ after := by
        simp [Span.text]
      have span (after : Text) : Span.scan ((Span.quoted quote body).text ++ after) =
          .quoted quote body :: Span.scan after := by
        rw [← whole, Text.scan_closed clear]
      have kept (after : Text) :
          Text.quotedSpans ((Span.quoted quote body).text ++ after) =
            (Span.quoted quote body).text :: Text.quotedSpans after := by
        rw [Text.quotedSpans, span]
        rfl
      rw [whole, span, blankQuotes_cons rfl] at blanked
      obtain ⟨more, rfl, inner⟩ := blanked_masked blanked
      rw [whole, substitute_blank (Span.text_ne_nil _), List.append_assoc, untouched unquoted, kept, kept,
        ih inner start]

end substitute

theorem dotted_unquoted {c : CodePoint} (dotted : Text.isDottedNameChar c = true) : Quote.of? c = none := by
  cases opens : Quote.of? c with
  | none => rfl
  | some quote =>
      obtain rfl := Quote.of?_eq_some opens
      revert dotted
      cases quote <;> decide

theorem parse_dotted {text : Text} {entry : Alias} (accepted : Alias.parse text = .ok entry) :
    entry.value ≠ [] ∧ ∀ c ∈ entry.value, Text.isDottedNameChar c = true := by
  rw [Alias.parse] at accepted
  split at accepted
  · cases accepted
  · dsimp only at accepted
    split at accepted
    · cases accepted
    split at accepted
    · cases accepted
    split at accepted
    · cases accepted
    · rename_i filled _ dotted
      cases accepted
      simp only [Bool.not_eq_true, Bool.not_eq_false'] at dotted
      exact ⟨fun empty => filled (.inr empty), List.all_eq_true.mp dotted⟩

/-- A definition is accepted only with a value that opens no quotes. -/
theorem value_unquoted {text : Text} {entry : Alias} (accepted : Alias.parse text = .ok entry) : entry.value.Unquoted :=
  fun c member => dotted_unquoted ((parse_dotted accepted).2 c member)

/-- Replacing the words of a line never touches what is quoted: with values that a definition may give, the line has the
same quoted spans before and after; and if no part of the line outside them is the name of an alias, whatever its case,
the line is kept. -/
theorem apply_quotedSpans (tables : List AliasTable) (line : Text)
    (checked : ∀ table ∈ tables, ∀ entry ∈ table, ∃ text, (Alias.parse text).map (·.value) = .ok entry.value) :
    Text.quotedSpans (apply tables line) = Text.quotedSpans line ∧
      ((∀ part, Text.Exposed part line → Lacks tables part) → apply tables line = line) := by
  have among : ∀ table ∈ tables.filter (· ≠ []), table ∈ tables := fun table member => (List.mem_filter.mp member).1
  have unquoted : ∀ table ∈ tables.filter (· ≠ []), ∀ entry ∈ table, entry.value.Unquoted := by
    intro table member entry inside
    obtain ⟨text, parsed⟩ := checked table (among table member) entry inside
    cases accepted : Alias.parse text with
    | error cause =>
        rw [accepted] at parsed
        cases parsed
    | ok found =>
        rw [accepted] at parsed
        obtain same : found.value = entry.value := Except.ok.inj parsed
        exact same ▸ value_unquoted accepted
  rw [apply]
  split
  · exact ⟨rfl, fun _ => rfl⟩
  · refine ⟨substitute_quotedSpans unquoted line (mask_blanked line) fun c member => absurd member List.not_mem_nil,
      fun lacks => ?_⟩
    exact substitute_lacking fun part filled inside => lacks_iff.mpr fun table member =>
      lacks_iff.mp (lacks part ⟨filled, inside⟩) table (among table member)

/-- An alias is replaced beside a closed span, a brace and a quote that is never closed; a line of quoted spans alone is
kept. -/
theorem spans_around_replacement :
    let tables : List AliasTable := [[⟨"foo", "bar.1"⟩], [⟨"Foo", "late"⟩]]
    let line : Text := "FOO \"foo\"foo \x7bfoo' foo\x7d, 'foo foo"
    apply tables line = ("bar.1 \"foo\"bar.1 \x7bfoo' foo\x7d, 'foo foo" : Text) ∧
      Text.quotedSpans (apply tables line) = Text.quotedSpans line ∧
      Text.quotedSpans line = [("\"foo\"" : Text), ("\x7bfoo' foo\x7d" : Text), ("'foo foo" : Text)] ∧
      apply tables "'foo'" = ("'foo'" : Text) := by
  intro tables line
  have checked : ∀ table ∈ tables, ∀ entry ∈ table, ∃ text, (Alias.parse text).map (·.value) = .ok entry.value := by
    intro table member entry inside
    simp only [tables, List.mem_cons, List.not_mem_nil, or_false] at member
    rcases member with rfl | rfl <;> obtain rfl := List.mem_singleton.mp inside
    · exact ⟨"foo = bar.1", by decide +kernel⟩
    · exact ⟨"Foo=late", by decide +kernel⟩
  refine ⟨by decide +kernel, (apply_quotedSpans tables line checked).1, by decide +kernel,
    (apply_quotedSpans tables _ checked).2 ?_⟩
  rintro (_ | ⟨c, part⟩) ⟨filled, inside⟩
  · exact absurd rfl filled
  · rw [show Span.scan ("'foo'" : Text) = [.quoted .single "foo"] by decide +kernel] at inside
    exact absurd (inside.subset (List.mem_cons_self ..)) (by simp)

end AliasTable

end CommandScript
