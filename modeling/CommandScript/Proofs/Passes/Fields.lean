import CommandScript.Proofs.Passes.Splitting

/-! Writing an array. Fields with commas between them and double quotes around them are read back one by one, by arrays
and by loops, if each of them may stand in an array at all. -/

namespace CommandScript

namespace Text

/-- What may stand between the commas of an array. -/
structure IsField (field : Text) : Prop where
  filled : field ≠ []
  trimmed : trim field = field
  noComma : .char ',' ∉ field
  noQuote : .char '"' ∉ field

def ofFields (fields : List Text) : Text := quoted ([.char ','].intercalate fields)

variable {fields : List Text}

theorem mem_intercalate {c separator : CodePoint} (member : c ∈ [separator].intercalate fields) :
    c = separator ∨ ∃ field ∈ fields, c ∈ field := by
  induction fields with
  | nil => cases member
  | cons first rest ih =>
      cases rest with
      | nil =>
          rw [List.intercalate_singleton] at member
          exact .inr ⟨first, by simp, member⟩
      | cons second rest =>
          rw [List.intercalate_cons_cons, List.mem_append, List.mem_append, List.mem_singleton] at member
          rcases member with (inside | same) | later
          · exact .inr ⟨first, by simp, inside⟩
          · exact .inl same
          · obtain same | ⟨field, among, inside⟩ := ih later
            · exact .inl same
            · exact .inr ⟨field, List.mem_cons_of_mem _ among, inside⟩

theorem fieldsBy_intercalate (allowed : ∀ field ∈ fields, IsField field) :
    fieldsBy (· == .char ',') ([.char ','].intercalate fields) = fields := by
  by_cases empty : fields = []
  · rw [empty]
    rfl
  · have pieces : ([.char ','].intercalate fields).splitOnP (· == .char ',') = fields :=
      List.splitOn_intercalate (CodePoint.char ',') (fun field member => (allowed field member).noComma) empty
    have trimmed : fields.map trim = fields := by
      simpa using List.map_congr_left fun field member => (allowed field member).trimmed
    rw [fieldsBy, pieces, trimmed, List.filter_eq_self]
    exact fun field member => decide_eq_true (allowed field member).filled

theorem intercalate_clear (allowed : ∀ field ∈ fields, IsField field) : .char '"' ∉ [.char ','].intercalate fields := by
  intro member
  obtain same | ⟨field, among, inside⟩ := mem_intercalate member
  · cases same
  · exact (allowed field among).noQuote inside

theorem splitArray_ofFields (allowed : ∀ field ∈ fields, IsField field) : splitArray (ofFields fields) = fields := by
  rw [ofFields, splitArray_quoted, splitArray_clear (intercalate_clear allowed), fieldsBy_intercalate allowed]

theorem listFields_ofFields (allowed : ∀ field ∈ fields, IsField field) :
    Flow.listFields (ofFields fields) = fields := by
  rw [Flow.listFields_eq, ofFields, stripQuotes_quoted, fieldsBy_intercalate allowed]

end Text

end CommandScript
