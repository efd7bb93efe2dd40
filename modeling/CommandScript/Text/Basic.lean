/-! Script text. Lines, names, values and messages are lists of code points, so that every scanner
is a recursion on the text and every position is a suffix. -/

namespace CommandScript

/-- A character, or half of a surrogate pair that stands alone. A half is a code point, but no character:
no encoding has bytes for it. -/
inductive CodePoint where
  | char (c : Char)
  | half (n : Fin 0x800)
  deriving DecidableEq, Repr

instance : Coe Char CodePoint := ⟨.char⟩

namespace CodePoint

def toNat : CodePoint → Nat
  | char c => c.toNat
  | half n => 0xD800 + n

def ofNat (n : Nat) : CodePoint :=
  if inside : 0xD800 ≤ n ∧ n < 0xE000 then half ⟨n - 0xD800, by omega⟩ else char (Char.ofNat n)

@[simp] theorem toNat_char (c : Char) : (char c).toNat = c.toNat := rfl

theorem ofNat_toNat (c : CodePoint) : ofNat c.toNat = c := by
  cases c with
  | char c =>
      have valid : ¬(0xD800 ≤ c.toNat ∧ c.toNat < 0xE000) := by
        rcases c.valid with low | ⟨high, _⟩
        · exact fun inside => Nat.not_le.mpr low inside.1
        · exact fun inside => Nat.not_lt.mpr high inside.2
      rw [ofNat, toNat, dif_neg valid, Char.ofNat_toNat]
  | half n =>
      have inside : 0xD800 + n.val < 0xE000 := by omega
      simp [ofNat, toNat, inside]

theorem ofNat_cases (n : Nat) : (ofNat n).toNat = n ∨ ofNat n = '\x00' := by
  unfold ofNat
  split
  · exact .inl (by simp only [toNat]; omega)
  · by_cases valid : n.isValidChar
    · exact .inl (by rw [Char.ofNat, dif_pos valid]; rfl)
    · exact .inr (by rw [Char.ofNat, dif_neg valid]; rfl)

instance : LE CodePoint := ⟨fun c other => c.toNat ≤ other.toNat⟩

instance (c other : CodePoint) : Decidable (c ≤ other) := inferInstanceAs (Decidable (c.toNat ≤ other.toNat))

instance : LT CodePoint := ⟨fun c other => c.toNat < other.toNat⟩

instance (c other : CodePoint) : Decidable (c < other) := inferInstanceAs (Decidable (c.toNat < other.toNat))

/-! Letters and digits of ASCII. -/

def isUpper (c : CodePoint) : Bool := 'A' ≤ c && c ≤ 'Z'

def isLower (c : CodePoint) : Bool := 'a' ≤ c && c ≤ 'z'

def isAlpha (c : CodePoint) : Bool := c.isUpper || c.isLower

def isDigit (c : CodePoint) : Bool := '0' ≤ c && c ≤ '9'

def isAlphanum (c : CodePoint) : Bool := c.isAlpha || c.isDigit

@[simp] theorem isDigit_char (c : Char) : (char c).isDigit = c.isDigit := rfl

def toLower : CodePoint → CodePoint
  | char c => c.toLower
  | half n => half n

def toUpper : CodePoint → CodePoint
  | char c => c.toUpper
  | half n => half n

@[simp] theorem toLower_char (c : Char) : (char c).toLower = char c.toLower := rfl

end CodePoint

abbrev Text := List CodePoint

instance : Coe String Text := ⟨fun s => s.toList.map .char⟩

namespace Text

def ofString (s : String) : Text := s

def characters? : Text → Option (List Char)
  | [] => some []
  | .char c :: rest => (characters? rest).map (c :: ·)
  | .half _ :: _ => none

theorem characters?_eq_some {s : Text} {characters : List Char} :
    characters? s = some characters ↔ s = characters.map .char := by
  induction s generalizing characters with
  | nil => cases characters <;> simp [characters?]
  | cons c rest ih =>
      cases c with
      | half => cases characters <;> simp [characters?]
      | char c =>
          cases characters with
          | nil => simp [characters?]
          | cons first more =>
              simp only [characters?, Option.map_eq_some_iff, ih, List.map_cons, List.cons.injEq, CodePoint.char.injEq]
              exact ⟨fun ⟨_, same, here, more⟩ => ⟨here, more ▸ same⟩, fun ⟨here, same⟩ => ⟨_, same, here, rfl⟩⟩

/-- Half of a pair has no bytes, and so has no text with one. -/
def encode? (s : Text) : Option (List UInt8) :=
  (characters? s).map fun characters => (String.ofList characters).toUTF8.toList

theorem encode?_eq_some {s : Text} {bytes : List UInt8} :
    encode? s = some bytes ↔ ∃ t : String, s = t ∧ t.toUTF8.toList = bytes := by
  simp only [encode?, Option.map_eq_some_iff, characters?_eq_some]
  constructor
  · rintro ⟨characters, rfl, rfl⟩
    exact ⟨String.ofList characters, by simp, rfl⟩
  · rintro ⟨t, rfl, rfl⟩
    exact ⟨t.toList, rfl, by simp⟩

def shown (s : Text) : String :=
  String.ofList (s.map fun
    | .char c => c
    | .half _ => '\ufffd')

def within (ranges : List (Nat × Nat)) (c : CodePoint) : Bool :=
  ranges.any fun (first, last) => first ≤ c.toNat && c.toNat ≤ last

def blankRanges : List (Nat × Nat) :=
  [(0x85, 0x85), (0xA0, 0xA0), (0x1680, 0x1680), (0x2000, 0x200A), (0x2028, 0x2029),
   (0x202F, 0x202F), (0x205F, 0x205F), (0x3000, 0x3000)]

/-- White space: the space, the controls from tab to carriage return and from file separator to
unit separator, and the spaces of other scripts. -/
def isBlank (c : CodePoint) : Bool :=
  if c.toNat < 128 then
    c.toNat == 32 || (9 ≤ c.toNat && c.toNat ≤ 13) || (28 ≤ c.toNat && c.toNat ≤ 31)
  else within blankRanges c

def trimLeft (s : Text) : Text := s.dropWhile isBlank

def trimRight (s : Text) : Text := (s.reverse.dropWhile isBlank).reverse

def trim (s : Text) : Text := trimRight (trimLeft s)

def cut? (mark : CodePoint) : Text → Option (Text × Text)
  | [] => none
  | c :: rest =>
    if c = mark then some ([], rest)
    else (cut? mark rest).map fun (before, after) => (c :: before, after)

theorem cut?_length {mark : CodePoint} {s before after : Text} (found : cut? mark s = some (before, after)) :
    after.length < s.length := by
  induction s generalizing before after with
  | nil => simp [cut?] at found
  | cons c rest ih =>
      simp only [cut?] at found
      split at found
      · simp only [Option.some.injEq, Prod.mk.injEq] at found
        simp [found.2]
      · obtain ⟨⟨first, second⟩, inner, same⟩ := Option.map_eq_some_iff.mp found
        simp only [Prod.mk.injEq] at same
        have shorter := ih inner
        simp only [List.length_cons]
        rw [← same.2]
        omega

theorem cut?_append {mark : CodePoint} {s before after : Text} (found : cut? mark s = some (before, after)) :
    s = before ++ mark :: after := by
  induction s generalizing before after with
  | nil => simp [cut?] at found
  | cons c rest ih =>
      simp only [cut?] at found
      split at found
      · rename_i same
        simp only [Option.some.injEq, Prod.mk.injEq] at found
        simp [← found.1, ← found.2, same]
      · obtain ⟨⟨first, second⟩, inner, same⟩ := Option.map_eq_some_iff.mp found
        simp only [Prod.mk.injEq] at same
        simp [← same.1, ← same.2, ih inner]

def cutLast? (mark : CodePoint) (s : Text) : Option (Text × Text) :=
  (cut? mark s.reverse).map fun (after, before) => (before.reverse, after.reverse)

def cutOrAll (mark : CodePoint) (s : Text) : Text × Text := (cut? mark s).getD (s, [])

/-- The first character is dropped while it is one of the given ones, and so is the last. -/
def stripChars (marks : Text) (s : Text) : Text :=
  ((s.dropWhile marks.contains).reverse.dropWhile marks.contains).reverse

def words (s : Text) : List Text :=
  (List.splitOnP isBlank s).filter (· ≠ [])

def firstWord (s : Text) : Text := (trimLeft s).takeWhile fun c => !isBlank c

def join (separator : Text) : List Text → Text
  | [] => []
  | [s] => s
  | s :: rest => s ++ separator ++ join separator rest

def endsWith (tail s : Text) : Bool := tail.isSuffixOf s

def startsWith (head s : Text) : Bool := head.isPrefixOf s

def orElse (s other : Text) : Text := if s.isEmpty then other else s

end Text

end CommandScript
