import CommandScript.Flow.Replay
import CommandScript.Proofs.Literals.Quoted

/-! The fields of a text. As an array a text is split at commas and at double quotes; a loop takes off the quotes around
it and splits it at commas alone. -/

namespace CommandScript

namespace Text

/-- What stands between separators, without white space around it; what is empty is dropped. -/
def fieldsBy (separates : CodePoint → Bool) (text : Text) : List Text :=
  ((List.splitOnP separates text).map trim).filter (· ≠ [])

variable {separates : CodePoint → Bool} {c : CodePoint}

theorem count_dropWhile (visible : isBlank c = false) (s : Text) : (s.dropWhile isBlank).count c = s.count c := by
  induction s with
  | nil => rfl
  | cons first rest ih =>
      rw [List.dropWhile_cons]
      split
      · rename_i blank
        have other : first ≠ c := by
          rintro rfl
          rw [visible] at blank
          cases blank
        rw [ih, List.count_cons_of_ne other]
      · rfl

theorem count_trim (visible : isBlank c = false) (s : Text) : (trim s).count c = s.count c := by
  rw [trim, trimRight, List.count_reverse, count_dropWhile visible, List.count_reverse, trimLeft,
    count_dropWhile visible]

theorem exists_visible {s : Text} (filled : trim s ≠ []) : ∃ c ∈ trim s, isBlank c = false := by
  rw [trim, trimRight, ne_eq, List.reverse_eq_nil_iff] at filled
  refine ⟨_, List.mem_reverse.mpr (List.head_mem filled), ?_⟩
  simpa using List.head_dropWhile_not isBlank filled

theorem flatten_pieces (s : Text) : (List.splitOnP separates s).flatten = s.filter (!separates ·) := by
  induction s with
  | nil => rfl
  | cons first rest ih =>
      obtain ⟨piece, more, split⟩ := List.exists_cons_of_ne_nil (List.splitOnP_ne_nil separates rest)
      rw [List.splitOnP_cons_eq_if_modifyHead, split]
      rw [split] at ih
      cases separator : separates first <;> simp [separator, ← ih]

/-- A visible character is in the fields as often as in the text, unless it separates them. -/
theorem count_fieldsBy (visible : isBlank c = false) (s : Text) :
    (fieldsBy separates s).flatten.count c = if separates c then 0 else s.count c := by
  have trimmed (pieces : List Text) : (pieces.map trim).flatten.count c = pieces.flatten.count c := by
    induction pieces with
    | nil => rfl
    | cons piece more ih => simp only [List.map_cons, List.flatten_cons, List.count_append, count_trim visible, ih]
  rw [fieldsBy, List.flatten_filter_ne_nil, trimmed, flatten_pieces]
  cases separator : separates c with
  | true => simp [List.count_eq_zero, separator]
  | false => exact List.count_filter (by simp [separator])

theorem fieldsBy_eq_nil {s : Text} (idle : ∀ c ∈ s, isBlank c = false → separates c = true) :
    fieldsBy separates s = [] := by
  refine List.eq_nil_iff_forall_not_mem.mpr fun field member => ?_
  obtain ⟨among, filled⟩ := List.mem_filter.mp member
  obtain ⟨piece, -, rfl⟩ := List.mem_map.mp among
  obtain ⟨c, inside, visible⟩ := exists_visible (of_decide_eq_true filled)
  have counted := @count_fieldsBy separates c visible s
  have found : 0 < (fieldsBy separates s).flatten.count c :=
    List.count_pos_iff.mpr (List.mem_flatten.mpr ⟨_, member, inside⟩)
  rw [counted] at found
  split at found
  · cases found
  · rename_i other
    exact other (idle c (List.count_pos_iff.mp found) visible)

theorem fieldsBy_separated (separator : separates c = true) (first second : Text) :
    fieldsBy separates (first ++ c :: second) = fieldsBy separates first ++ fieldsBy separates second := by
  rw [fieldsBy, List.splitOnP_append_cons first second separator, List.map_append, List.filter_append]
  rfl

theorem fieldsBy_congr {other : CodePoint → Bool} {s : Text} (same : ∀ c ∈ s, separates c = other c) :
    fieldsBy separates s = fieldsBy other s := by
  have pieces : List.splitOnP separates s = List.splitOnP other s := by
    induction s with
    | nil => rfl
    | cons first rest ih =>
        rw [List.splitOnP_cons_eq_if_modifyHead, List.splitOnP_cons_eq_if_modifyHead, same first (by simp),
          ih fun c member => same c (by simp [member])]
  rw [fieldsBy, pieces]
  rfl

/-- Nothing but a pair of straight quotes around the text is ever taken off. -/
theorem stripQuotes_cases (s : Text) :
    stripQuotes s = s ∨ ∃ quote, (Quote.ofStraight? quote).isSome ∧ s = quote :: stripQuotes s ++ [quote] := by
  cases s with
  | nil => exact .inl rfl
  | cons first rest =>
      rw [stripQuotes]
      split
      · rename_i quote last opens ends
        split
        · rename_i same
          subst same
          have whole := List.dropLast_append_getLast? last ends
          exact .inr ⟨last, by rw [opens]; rfl, by rw [List.cons_append, whole]⟩
        · exact .inl rfl
      · exact .inl rfl

theorem straight_visible {quote : CodePoint} (straight : (Quote.ofStraight? quote).isSome) :
    isBlank quote = false ∧ quote ≠ ',' := by
  obtain ⟨kind, opens⟩ := Option.isSome_iff_exists.mp straight
  obtain rfl := Quote.of?_eq_some (Option.filter_eq_some_iff.mp opens).1
  cases kind <;> decide

/-- A text without double quotes, except for a pair around it, that stands in no other quotes. -/
inductive EvenlyQuoted : Text → Prop
  | bare {text : Text} : .char '"' ∉ text → stripQuotes text = text → EvenlyQuoted text
  | quoted {body : Text} : .char '"' ∉ body → EvenlyQuoted (quoted body)

end Text

theorem splitArray_eq (text : Text) :
    splitArray text = Text.fieldsBy (fun c => c = .char ',' || c = .char '"') text := rfl

theorem Flow.listFields_eq (text : Text) :
    listFields text = Text.fieldsBy (· == .char ',') (Text.stripQuotes text) := rfl

namespace Text

theorem splitArray_clear {text : Text} (clear : .char '"' ∉ text) :
    splitArray text = fieldsBy (· == .char ',') text := by
  refine fieldsBy_congr fun c member => ?_
  have other : c ≠ '"' := fun same => clear (same ▸ member)
  rw [Bool.eq_iff_iff]
  simp [other]

theorem splitArray_quoted (body : Text) : splitArray (quoted body) = splitArray body := by
  have front := @fieldsBy_separated (fun c => c = .char ',' || c = .char '"') '"' (by decide) []
    (body ++ (['"'] : Text))
  have back := @fieldsBy_separated (fun c => c = .char ',' || c = .char '"') '"' (by decide) body []
  rw [splitArray_eq, quoted, List.cons_append, ← List.nil_append (.char '"' :: (body ++ (['"'] : Text))), front, back]
  exact List.append_nil _

/-- Arrays and loops find the same fields in a text exactly if it is evenly quoted. -/
theorem splitArray_eq_listFields (text : Text) : splitArray text = Flow.listFields text ↔ EvenlyQuoted text := by
  constructor
  · intro same
    have counted {c : CodePoint} (visible : isBlank c = false) (other : c ≠ ',') :
        (stripQuotes text).count c = if c = '"' then 0 else text.count c := by
      have counts := congrArg (fun fields => fields.flatten.count c) same
      simp only [splitArray_eq, Flow.listFields_eq, count_fieldsBy visible] at counts
      simpa [other] using counts.symm
    have clear : .char '"' ∉ stripQuotes text := List.count_eq_zero.mp (counted (c := '"') (by decide) (by decide))
    rcases stripQuotes_cases text with bare | ⟨quote, straight, whole⟩
    · exact .bare (bare ▸ clear) bare
    · by_cases double : quote = '"'
      · subst double
        rw [whole]
        exact .quoted clear
      · obtain ⟨visible, other⟩ := straight_visible straight
        have kept := counted visible other
        have around := congrArg (List.count quote) whole
        rw [if_neg double] at kept
        simp at around
        omega
  · rintro (⟨clear, bare⟩ | ⟨clear⟩)
    · rw [splitArray_clear clear, Flow.listFields_eq, bare]
    · rw [splitArray_quoted, splitArray_clear clear, Flow.listFields_eq, stripQuotes_quoted]

example : splitArray "\"p\"q\"" = ["p", "q"].map Text.ofString ∧
    Flow.listFields "\"p\"q\"" = ["p\"q"].map Text.ofString := by decide

end Text

end CommandScript
