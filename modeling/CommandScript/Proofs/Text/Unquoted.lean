import CommandScript.Text.Statement

/-! Texts without quotes: every character stands for itself. -/

namespace CommandScript

/-- What is asked of the characters of a text is decided along the text, not for all characters there are. -/
instance Text.decidableForall (s : Text) (p : CodePoint → Prop) [DecidablePred p] : Decidable (∀ c ∈ s, p c) :=
  List.decidableBAll p s

def Text.Unquoted (s : Text) : Prop := ∀ c ∈ s, Quote.of? c = none

instance (s : Text) : Decidable s.Unquoted := List.decidableBAll _ s

theorem Text.Unquoted.tail {c : CodePoint} {s : Text} (unquoted : Text.Unquoted (c :: s)) : s.Unquoted :=
  fun other member => unquoted other (by simp [member])

theorem Span.scan_unquoted {s : Text} (unquoted : s.Unquoted) : Span.scan s = s.map Span.plain := by
  unfold Span.scan
  induction s with
  | nil => simp [Span.scanWith]
  | cons c rest ih =>
      have plain := unquoted c (by simp)
      rw [Span.scanWith]
      split
      · rw [ih unquoted.tail, List.map_cons]
      · rename_i quote opens
        rw [plain] at opens
        cases opens

namespace Text

theorem stripComment_unquoted {s : Text} (unquoted : s.Unquoted) (noComment : .char '#' ∉ s) : stripComment s = s := by
  rw [stripComment, Span.scan_unquoted unquoted]
  induction s with
  | nil => rfl
  | cons c rest ih =>
      simp only [List.mem_cons, not_or] at noComment
      rw [List.map_cons, beforeComment, if_neg (Ne.symm noComment.1), ih unquoted.tail noComment.2]

theorem pieces_plain {s : Text} (whole : ∀ c ∈ s, endsStatement c = false) :
    pieces (s.map Span.plain) = .ok [s] := by
  induction s with
  | nil => rfl
  | cons c rest ih =>
      have inner := ih fun other member => whole other (by simp [member])
      rw [List.map_cons, pieces, inner, whole c (by simp)]
      rfl

theorem splitStatements_unquoted {s : Text} (unquoted : s.Unquoted) (whole : ∀ c ∈ s, endsStatement c = false)
    (trimmed : trim s = s) (filled : s ≠ []) : splitStatements s = .ok [s] := by
  rw [splitStatements, Span.scan_unquoted unquoted, pieces_plain whole]
  simp [Except.map, trimmed, filled]

theorem checkBalance_unquoted {s : Text} (unquoted : s.Unquoted)
    (balanced : countMarks 0 0 (s.map Span.plain) = .ok (0, 0)) : checkBalance s = .ok () := by
  rw [checkBalance, Span.scan_unquoted unquoted, balanced]
  rfl

end Text

end CommandScript
