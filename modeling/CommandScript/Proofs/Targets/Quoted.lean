import CommandScript.Command.Target
import CommandScript.Proofs.Comments.Stripping
import CommandScript.Proofs.Literals.Quoted

/-! A script named in quotes. The argument is cut at its first opening brace before the quotes are looked at, so a path
comes through exactly if it has no such brace: whatever stands before the brace is taken for the path otherwise. -/

namespace CommandScript.ScriptTarget

variable {path : Text}

theorem splitBlock_whole {text : Text} (unbraced : .char '\x7b' ∉ text) : splitBlock text = (text, none) := by
  rw [splitBlock, Text.cut?_eq_none.mpr unbraced]

theorem splitBlock_cut {before : Text} (unbraced : .char '\x7b' ∉ before) (after : Text) :
    ∃ block, splitBlock (before ++ .char '\x7b' :: after) = (Text.trim before, some (Text.trim block)) := by
  have found : Text.cut? '\x7b' (before ++ .char '\x7b' :: after) = some (before, after) :=
    Text.cut?_word fun c member same => unbraced (same ▸ member)
  rw [splitBlock, found]
  exact ⟨_, rfl⟩

theorem splitBlock_block {before : Text} (unbraced : .char '\x7b' ∉ before) (block : Text) :
    splitBlock (before ++ .char '\x7b' :: (block ++ (['\x7d'] : Text))) =
      (Text.trim before, some (Text.trim block)) := by
  have found : Text.cut? '\x7b' (before ++ .char '\x7b' :: (block ++ (['\x7d'] : Text))) =
      some (before, block ++ (['\x7d'] : Text)) :=
    Text.cut?_word fun c member same => unbraced (same ▸ member)
  have last : Text.cutLast? '\x7d' (block ++ (['\x7d'] : Text)) = some (block, []) := by
    simp [Text.cutLast?, Text.cut?]
  simp only [splitBlock, found, last, Option.map_some, Option.getD_some]

theorem quotedPath?_quoted (path : Text) : quotedPath? (Text.quoted path) = some path := by
  have last : (path ++ (['"'] : Text)).getLast? = some (.char '"') := List.getLast?_concat
  have straight : (Quote.ofStraight? '"').isSome = true := by decide
  simp only [Text.quoted, List.cons_append, quotedPath?, straight, last, ↓reduceIte, List.dropLast_concat]

theorem quotedPath?_open {rest : Text} (clear : .char '"' ∉ rest) : quotedPath? (.char '"' :: rest) = some rest := by
  have straight : (Quote.ofStraight? '"').isSome = true := by decide
  have unclosed : rest.getLast? ≠ some (.char '"') := fun last => clear (List.mem_of_getLast? last)
  simp only [quotedPath?, straight, unclosed, ↓reduceIte]

-- a quoted argument is never looked up
theorem read_quotedPath (lookup : Text → Except Failure (Option Text)) {text first : Text} {block : Option Text}
    (trimmed : Text.trim text = text) (given : text ≠ []) (split : splitBlock text = (first, block))
    (quoted : quotedPath? first = some path) :
    read lookup text =
      if path.isEmpty then .error (.cause (.command .missingScript)) else .ok ⟨path, block.filter (!·.isEmpty)⟩ := by
  have filled : text.isEmpty = false := by simpa using given
  simp only [read, trimmed, filled, split, quoted, Option.elim, Bool.false_eq_true, ↓reduceIte]

section Arguments

variable (lookup : Text → Except Failure (Option Text))

theorem trim_argument (middle : Text) (last : CodePoint) (visible : Text.isBlank last = false) :
    Text.trim (.char '"' :: (middle ++ [last])) = .char '"' :: (middle ++ [last]) := by
  apply Text.trim_visible
  · rintro _ ⟨⟩
    decide
  · rw [← List.cons_append, List.getLast?_concat]
    rintro _ ⟨⟩
    exact visible

theorem read_unbraced (named : path ≠ []) (unbraced : .char '\x7b' ∉ path) :
    read lookup (Text.quoted path) = .ok ⟨path, none⟩ := by
  have plain : .char '\x7b' ∉ Text.quoted path := by simpa [Text.quoted] using unbraced
  have split := splitBlock_whole plain
  rw [read_quotedPath lookup (Text.trim_quoted_alone path) (by simp [Text.quoted]) split (quotedPath?_quoted path)]
  simp [named]

theorem read_block_unbraced (named : path ≠ []) (unbraced : .char '\x7b' ∉ path) {gap : Text}
    (blank : ∀ c ∈ gap, Text.isBlank c = true) {block : Text} (written : Text.trim block ≠ []) :
    read lookup (Text.quoted path ++ gap ++ .char '\x7b' :: (block ++ (['\x7d'] : Text))) =
      .ok ⟨path, some (Text.trim block)⟩ := by
  have plain : .char '\x7b' ∉ Text.quoted path ++ gap := by
    have spaces : .char '\x7b' ∉ gap := fun member => absurd (blank _ member) (by decide)
    simpa [Text.quoted, spaces] using unbraced
  have trimmed : Text.trim (Text.quoted path ++ gap ++ .char '\x7b' :: (block ++ (['\x7d'] : Text))) =
      Text.quoted path ++ gap ++ .char '\x7b' :: (block ++ (['\x7d'] : Text)) := by
    have framed := trim_argument (path ++ .char '"' :: gap ++ .char '\x7b' :: block) '\x7d' (by decide)
    simpa [Text.quoted] using framed
  have split : splitBlock (Text.quoted path ++ gap ++ .char '\x7b' :: (block ++ (['\x7d'] : Text))) =
      (Text.quoted path, some (Text.trim block)) := by
    rw [splitBlock_block plain, Text.trim_append blank, Text.trim_quoted_alone]
  rw [read_quotedPath lookup trimmed (by simp [Text.quoted]) split (quotedPath?_quoted path)]
  simp [named, written]

theorem read_braced (clear : .char '"' ∉ path) (braced : .char '\x7b' ∈ path) (middle : Text) {last : CodePoint}
    (visible : Text.isBlank last = false) {target : ScriptTarget}
    (found : read lookup (.char '"' :: (path ++ middle ++ [last])) = .ok target) : target.path ≠ path := by
  obtain ⟨before, after, rfl, unbraced⟩ := List.eq_append_cons_of_mem braced
  obtain ⟨gap, whole, -⟩ := Text.trimRight_gap before
  have clearBefore : .char '"' ∉ Text.trimRight before := by
    intro member
    rw [whole] at clear
    simp [member] at clear
  have plain : .char '\x7b' ∉ .char '"' :: before := by simpa using unbraced
  obtain ⟨block, split⟩ := splitBlock_cut plain (after ++ middle ++ [last])
  have cut : Text.trim (.char '"' :: before) = .char '"' :: Text.trimRight before :=
    Text.trim_around (by decide) [] before
  have trimmed := trim_argument (before ++ .char '\x7b' :: after ++ middle) last visible
  have same : .char '"' :: (before ++ .char '\x7b' :: after ++ middle ++ [last]) =
      (.char '"' :: before) ++ .char '\x7b' :: (after ++ middle ++ [last]) := by simp
  rw [cut] at split
  rw [same] at trimmed found
  rw [read_quotedPath lookup trimmed (by simp) split (quotedPath?_open clearBefore)] at found
  split at found
  · cases found
  · cases found
    intro unchanged
    have sizes := congrArg List.length whole
    have equal := congrArg List.length unchanged
    simp only [List.length_append, List.length_cons] at sizes equal
    omega

/-- A path in quotes is the path of the script, alone or before a block, exactly if it has no opening brace. This holds
for every variable store, and for any white space before the block. -/
theorem read_quoted (path : Text) (clear : .char '"' ∉ path) (named : path ≠ []) :
    (read lookup (Text.quoted path) = .ok ⟨path, none⟩ ↔ .char '\x7b' ∉ path) ∧
      ∀ gap block : Text, (∀ c ∈ gap, Text.isBlank c = true) → Text.trim block ≠ [] →
        (read lookup (Text.quoted path ++ gap ++ .char '\x7b' :: (block ++ (['\x7d'] : Text))) =
          .ok ⟨path, some (Text.trim block)⟩ ↔
          .char '\x7b' ∉ path) := by
  constructor
  · constructor
    · intro found braced
      have alone : Text.quoted path = .char '"' :: (path ++ [] ++ (['"'] : Text)) := by simp [Text.quoted]
      rw [alone] at found
      exact read_braced lookup clear braced [] (by decide) found rfl
    · exact read_unbraced lookup named
  · intro gap block blank written
    constructor
    · intro found braced
      have framed : Text.quoted path ++ gap ++ .char '\x7b' :: (block ++ (['\x7d'] : Text)) =
          .char '"' :: (path ++ (.char '"' :: gap ++ .char '\x7b' :: block) ++ (['\x7d'] : Text)) := by
            simp [Text.quoted]
      rw [framed] at found
      exact read_braced lookup clear braced _ (by decide) found rfl
    · intro unbraced
      exact read_block_unbraced lookup named unbraced blank written

def otherPath : Text → Except Failure (Option Text) := fun _ => .ok (some "c")

/-- A path of two words before a block, and a path with a brace. -/
theorem read_quoted_blank :
    read otherPath "\"a [b]\" \x7b x = 1 \x7d" = .ok ⟨"a [b]", some "x = 1"⟩ ∧
      read otherPath "\"a\x7bb\"" ≠ .ok ⟨"a\x7bb", none⟩ := by
  constructor
  · exact ((read_quoted otherPath "a [b]" (by decide) (by decide)).2 " " " x = 1 " (by decide) (by decide)).mpr
      (by decide)
  · intro found
    exact (read_quoted otherPath "a\x7bb" (by decide) (by decide)).1.mp found (by decide)

end Arguments

end CommandScript.ScriptTarget
