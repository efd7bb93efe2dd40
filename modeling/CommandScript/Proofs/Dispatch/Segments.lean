import CommandScript.Proofs.Comments.Stripping
import CommandScript.Proofs.Integers.Lines
import CommandScript.Words

/-! The arguments of a command as a list of segments: blanks, equals signs, quoted texts, keys and the words between
them. What a segmentation is, is said without a scanner; every text has one, and the pieces that are cut off a text are
its segments. -/

namespace CommandScript

inductive Segment where
  | blank (c : CodePoint)
  | equals
  | quoted (quote : Quote) (body : Text)
  /-- A quote that is never closed runs to the end. -/
  | unclosed (quote : Quote) (rest : Text)
  | key (letters : Text)
  | word (letters : Text)
  deriving DecidableEq, Repr

namespace Segment

def text : Segment → Text
  | blank c => [c]
  | equals => [.char '=']
  | quoted quote body => quote.opening :: body ++ [quote.closing]
  | unclosed quote rest => quote.opening :: rest
  | key letters | word letters => letters

def isWord : Segment → Bool
  | word _ => true
  | _ => false

/-- A word before the rest of a text: it has no white space, equals sign or opening quote, and is not to be made
longer. -/
structure Maximal (word rest : Text) : Prop where
  filled : word ≠ []
  inner : ∀ c ∈ word, Piece.endsArgument c = false
  ends : ∀ c ∈ rest.head?, Piece.endsArgument c = true

/-- A single equals sign follows, up to white space. -/
def EqualsNext (rest : Text) : Prop :=
  ∃ blanks after : Text, rest = blanks ++ .char '=' :: after ∧ (∀ c ∈ blanks, Text.isBlank c = true) ∧
    after.head? ≠ some (.char '=')

end Segment

/-- The segments of a text, from left to right. A word is a key just if a single equals sign follows. -/
inductive Segmented : Text → List Segment → Prop
  | done : Segmented [] []
  | blank {c : CodePoint} {rest : Text} {segments : List Segment} :
      Text.isBlank c = true → Segmented rest segments → Segmented (c :: rest) (.blank c :: segments)
  | equals {rest : Text} {segments : List Segment} : Segmented rest segments →
      Segmented ('=' :: rest) (.equals :: segments)
  | quoted {quote : Quote} {body rest : Text} {segments : List Segment} :
      quote.closing ∉ body → Segmented rest segments →
        Segmented (quote.opening :: (body ++ quote.closing :: rest)) (.quoted quote body :: segments)
  | unclosed {quote : Quote} {rest : Text} : quote.closing ∉ rest →
      Segmented (quote.opening :: rest) [.unclosed quote rest]
  | key {word rest : Text} {segments : List Segment} :
      Segment.Maximal word rest → Segment.EqualsNext rest → Segmented rest segments →
        Segmented (word ++ rest) (.key word :: segments)
  | word {word rest : Text} {segments : List Segment} :
      Segment.Maximal word rest → ¬Segment.EqualsNext rest → Segmented rest segments →
        Segmented (word ++ rest) (.word word :: segments)

theorem Segmented.text_eq {text : Text} {segments : List Segment} (parts : Segmented text segments) :
    segments.flatMap Segment.text = text := by
  induction parts with
  | done => rfl
  | blank _ _ ih | equals _ ih | key _ _ _ ih | word _ _ _ ih => simp [Segment.text, ih]
  | quoted _ _ ih => simp [Segment.text, ih]
  | unclosed _ => simp [Segment.text]

namespace Piece

theorem isKey_iff {rest : Text} : isKey rest = true ↔ Segment.EqualsNext rest := by
  have split : rest = rest.takeWhile Text.isBlank ++ Text.trimLeft rest := (List.takeWhile_append_dropWhile).symm
  constructor
  · intro key
    rw [isKey] at key
    split at key
    · cases key
    · rename_i after single shape
      refine ⟨rest.takeWhile Text.isBlank, after, by rwa [← shape], fun c member => List.mem_takeWhile_imp member, ?_⟩
      intro double
      obtain ⟨more, rfl⟩ := List.head?_eq_some_iff.mp double
      exact single more rfl
    · cases key
  · rintro ⟨blanks, after, rfl, white, single⟩
    have trimmed : Text.trimLeft (blanks ++ .char '=' :: after) = .char '=' :: after := by
      rw [Text.trimLeft, List.dropWhile_append_of_pos white, List.dropWhile_cons_of_neg (by decide)]
    rw [isKey, trimmed]
    split
    · rename_i more shape
      cases shape
      exact absurd rfl single
    · rfl
    · rename_i other
      exact absurd rfl (other after)

theorem opening_straight (quote : Quote) : (Text.isBlank quote.opening || decide (quote.opening = '=')) = false := by
  cases quote <;> decide

end Piece

namespace Segment

def piece : Segment → Piece
  | word letters => .word letters
  | segment => .verbatim segment.text

end Segment

open Piece

theorem Segment.Maximal.ofArguments {word rest : Text} (whole : Segment.Maximal word rest) :
    ofArguments (word ++ rest) = (if isKey rest then .verbatim word else .word word) :: ofArguments rest := by
  obtain ⟨c, more, rfl⟩ := List.exists_cons_of_ne_nil whole.filled
  have plain : endsArgument c = false := whole.inner c List.mem_cons_self
  have inner : ∀ d ∈ more, (!endsArgument d) = true := fun d member => by
    simp [whole.inner d (List.mem_cons_of_mem _ member)]
  have taken : (more ++ rest).takeWhile (!endsArgument ·) = more := by
    rw [List.takeWhile_append_of_pos inner]
    cases rest with
    | nil => rw [List.takeWhile_nil, List.append_nil]
    | cons d tail => rw [List.takeWhile_cons_of_neg (by simp [whole.ends d rfl]), List.append_nil]
  simp only [endsArgument, Bool.or_eq_false_iff, decide_eq_false_iff_not, Quote.isOpening, Option.isSome_eq_false_iff,
    Option.isNone_iff_eq_none] at plain
  rw [List.cons_append, Piece.ofArguments]
  simp [plain, taken]

theorem Segmented.ofArguments {text : Text} {segments : List Segment} (parts : Segmented text segments) :
    ofArguments text = segments.map Segment.piece := by
  have separate {mark : CodePoint} {body : Text} (clear : mark ∉ body) : ∀ c ∈ body, c ≠ mark := fun c member same =>
    clear (same ▸ member)
  induction parts with
  | done => simp [Piece.ofArguments]
  | blank white _ ih => simp [Piece.ofArguments, white, ih, Segment.piece, Segment.text]
  | equals _ ih => simp [Piece.ofArguments, ih, Segment.piece, Segment.text]
  | @quoted quote body rest segments clear _ ih =>
      rw [Piece.ofArguments, opening_straight quote]
      simp only [Bool.false_eq_true, if_false, Quote.of?_opening]
      have cut : Text.cut? quote.closing (body ++ quote.closing :: rest) = some (body, rest) :=
        Text.cut?_word (separate clear)
      split
      · rename_i missing
        rw [cut] at missing
        cases missing
      · rename_i before after found
        rw [cut] at found
        cases found
        rw [ih]
        rfl
  | @unclosed quote rest clear =>
      rw [Piece.ofArguments, opening_straight quote]
      simp only [Bool.false_eq_true, if_false, Quote.of?_opening]
      split
      · rfl
      · rename_i before after found
        rw [Text.cut?_eq_none.mpr clear] at found
        cases found
  | key whole next _ ih => rw [whole.ofArguments, if_pos (isKey_iff.mpr next), ih]; rfl
  | word whole next _ ih => rw [whole.ofArguments, if_neg (mt isKey_iff.mp next), ih]; rfl

theorem exists_segmented (text : Text) : ∃ segments, Segmented text segments := by
  fun_induction Piece.ofArguments text with
  | case1 => exact ⟨[], .done⟩
  | case2 c rest plain ih =>
      obtain ⟨segments, parts⟩ := ih
      rcases Bool.or_eq_true_iff.mp plain with white | equals
      · exact ⟨_, .blank white parts⟩
      · obtain rfl := of_decide_eq_true equals
        exact ⟨_, .equals parts⟩
  | case3 c rest _ quote opens missing =>
      obtain rfl := Quote.of?_eq_some opens
      exact ⟨_, .unclosed (Text.cut?_eq_none.mp missing)⟩
  | case4 c rest _ quote opens body after found ih =>
      obtain rfl := Quote.of?_eq_some opens
      obtain rfl := Text.cut?_append found
      obtain ⟨segments, parts⟩ := ih
      exact ⟨_, .quoted (fun member => Text.cut?_before found _ member rfl) parts⟩
  | case5 c rest visible noQuote letters after ih =>
      obtain ⟨segments, parts⟩ := ih
      have rest_eq : rest = rest.takeWhile (!endsArgument ·) ++ rest.dropWhile (!endsArgument ·) :=
        List.takeWhile_append_dropWhile.symm
      have after_eq : after = rest.dropWhile (!endsArgument ·) := by
        calc
          after = (rest.takeWhile (!endsArgument ·) ++ rest.dropWhile (!endsArgument ·)).drop
              (rest.takeWhile (!endsArgument ·)).length := by rw [← rest_eq]; rfl
          _ = rest.dropWhile (!endsArgument ·) := List.drop_left
      have whole : c :: rest = letters ++ after := by rw [after_eq, List.cons_append, ← rest_eq]
      have plain : endsArgument c = false := by
        simp only [Bool.or_eq_true, decide_eq_true_eq, not_or, Bool.not_eq_true] at visible
        simp [endsArgument, Quote.isOpening, noQuote, visible]
      have maximal : Segment.Maximal letters after := by
        refine ⟨List.cons_ne_nil _ _, fun d member => ?_, fun d first => ?_⟩
        · rcases List.mem_cons.mp member with rfl | inner
          · exact plain
          · simpa using List.mem_takeWhile_imp inner
        · rw [after_eq] at first
          have stops := List.head?_dropWhile_not (!endsArgument ·) rest
          rw [Option.mem_def.mp first] at stops
          simpa using stops
      rw [whole]
      by_cases next : Segment.EqualsNext after
      · exact ⟨_, .key maximal next parts⟩
      · exact ⟨_, .word maximal next parts⟩

end CommandScript
