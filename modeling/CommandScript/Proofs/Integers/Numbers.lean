import Mathlib.Data.List.TakeWhile
import Mathlib.Data.Option.Basic
import CommandScript.Proofs.Integers.Scanning
import CommandScript.Proofs.Text.Casing

/-! Numerals and names as terms. Integers are written and read back as they were, and a name is taken neither
for a number nor for a constant or a time. -/

namespace CommandScript

theorem isDigit_value {c : CodePoint} (digit : c.isDigit) : Text.digitValue? c = some (c.toNat - 48) := by
  have mark : isWordMark c := by simp [isWordMark, CodePoint.isAlphanum, digit]
  exact ascii_forall (p := fun c => c.isDigit → Text.digitValue? c = some (c.toNat - 48))
    (by decide) (isWordMark_ascii mark) digit

theorem start_noDigit {c : CodePoint} (starts : (c.isAlpha || c = '_') = true) : Text.isDecimal c = false := by
  have mark : isWordMark c := by
    rcases Bool.or_eq_true_iff.mp starts with letter | line
    · simp [isWordMark, CodePoint.isAlphanum, letter]
    · simp [isWordMark, line]
  exact ascii_forall (p := fun c => (c.isAlpha || c = '_') = true → Text.isDecimal c = false)
    (by decide) (isWordMark_ascii mark) starts

theorem Text.trim_marks {word : Text} (marks : ∀ c ∈ word, isWordMark c) : trim word = word :=
  trim_visible (fun c member => (isWordMark_neutral (marks c (List.mem_of_mem_head? member))).1)
    (fun c member => (isWordMark_neutral (marks c (List.mem_of_mem_getLast? member))).1)

theorem Number.cutSign_word {c : CodePoint} (word : isWordMark c) (rest : Text) :
    cutSign (c :: rest) = (false, c :: rest) := by
  unfold cutSign
  split
  · rename_i same
    cases same
    exact absurd word (by decide)
  · rename_i same
    cases same
    exact absurd word (by decide)
  · rfl

theorem Number.tenTo_le {first second : Nat} (le : first ≤ second) : tenTo first ≤ tenTo second :=
  Nat.pow_le_pow_right (by decide) le

theorem Number.integerLimit_eq : integerLimit = tenTo mostIntegerDigits := by
  unfold integerLimit
  with_reducible rfl

namespace Numeral

variable (numeral : Numeral)

theorem isDecimal {c : CodePoint} (member : c ∈ numeral.digits) : Text.isDecimal c = true := by
  rw [Text.isDecimal, isDigit_value (Numeral.isDigit member)]
  rfl

theorem allDecimal : numeral.digits.all Text.isDecimal = true :=
  List.all_eq_true.mpr fun _ member => numeral.isDecimal member

theorem digitsToNat : Text.digitsToNat numeral.digits = numeral.number := by
  have folded : ∀ (figures : List Char) (total : Nat), figures.all Char.isDigit →
      (figures.map CodePoint.char).foldl (fun total c => 10 * total + (Text.digitValue? c).getD 0) total =
        Nat.ofDigitChars 10 figures total := by
    intro figures
    induction figures with
    | nil => exact fun _ _ => rfl
    | cons c figures ih =>
        intro total decimal
        rw [List.all_cons, Bool.and_eq_true] at decimal
        rw [List.map_cons, List.foldl_cons, Nat.ofDigitChars_cons, isDigit_value (c := .char c) decimal.1]
        exact ih _ decimal.2
  exact folded numeral.figures 0 numeral.decimal

theorem cutSign : Number.cutSign numeral.digits = (false, numeral.digits) := by
  obtain ⟨c, rest, same⟩ := List.exists_cons_of_ne_nil numeral.digits_filled
  rw [same]
  exact Number.cutSign_word (numeral.mark (by simp [same])) rest

def withSign (negative : Bool) : Text := if negative then .char '-' :: numeral.digits else numeral.digits

theorem trim_withSign (negative : Bool) : Text.trim (numeral.withSign negative) = numeral.withSign negative := by
  cases negative with
  | false => exact Text.trim_marks fun c => numeral.mark
  | true =>
      apply Text.trim_visible
      · rintro c ⟨⟩
        decide
      · intro c member
        have last : c ∈ numeral.digits := by
          obtain ⟨first, rest, same⟩ := List.exists_cons_of_ne_nil numeral.digits_filled
          rw [withSign, if_pos rfl, same, List.getLast?_cons_cons] at member
          rw [same]
          exact List.mem_of_mem_getLast? member
        exact (isWordMark_neutral (numeral.mark last)).1

theorem cutSign_withSign (negative : Bool) :
    Number.cutSign (numeral.withSign negative) = (negative, numeral.digits) := by
  cases negative with
  | false => exact numeral.cutSign
  | true => rfl

theorem parseInt_withSign (negative : Bool) :
    Number.parseInt (numeral.withSign negative) =
      if Number.mostIntegerDigits < numeral.digits.length then .error .digits
      else .ok (some (Number.withSign negative numeral.number)) := by
  rw [Number.parseInt, numeral.trim_withSign, numeral.cutSign_withSign, numeral.digitsToNat.symm]
  exact if_neg (by simp [numeral.digits_filled, numeral.allDecimal])

theorem parseInt (negative : Bool) (short : numeral.digits.length ≤ Number.mostIntegerDigits) :
    Number.parseInt (numeral.withSign negative) = .ok (some (Number.withSign negative numeral.number)) := by
  rw [parseInt_withSign, if_neg (Nat.not_lt.mpr short)]

theorem isNumber (negative : Bool) : Number.isNumber (numeral.withSign negative) = true := by
  have all := List.all_eq_true.mp numeral.allDecimal
  have whole : Number.cutDigits numeral.digits = (numeral.digits, []) :=
    Prod.ext (List.takeWhile_eq_self_iff.mpr all) (List.dropWhile_eq_nil_iff.mpr all)
  simp [Number.isNumber, Number.parseDecimal, numeral.trim_withSign, numeral.cutSign_withSign, whole,
    numeral.digits_filled,
    Number.parseExponent, guard, pure]

theorem notTruth : ¬(Text.lower numeral.digits = "true" ∨ Text.lower numeral.digits = "false") := by
  obtain ⟨c, rest, same⟩ := List.exists_cons_of_ne_nil numeral.digits_filled
  have ascii : ∀ other ∈ c :: rest, other.toNat < 128 := fun other member =>
    isWordMark_ascii (numeral.mark (by rwa [same]))
  have digit : c.isDigit := @Numeral.isDigit numeral _ (by simp [same])
  have letters : c.toLower ≠ 't' ∧ c.toLower ≠ 'f' :=
    ascii_forall (p := fun c => c.isDigit → c.toLower ≠ 't' ∧ c.toLower ≠ 'f') (by decide)
      (ascii c (by simp)) digit
  rw [same, Text.lower_map ascii]
  simp [letters]

def ofNat (n : Nat) : Numeral where
  figures := Nat.toDigits 10 n
  filled := Nat.toDigits_ne_nil
  decimal := List.all_eq_true.mpr fun _ member => Nat.isDigit_of_mem_toDigits (by decide) (by decide) member

theorem ofNat_number (n : Nat) : (ofNat n).number = n := Nat.ofDigitChars_ten_toDigits

theorem ofNat_length {n most : Nat} (positive : 0 < most) (below : n < Number.tenTo most) :
    (ofNat n).digits.length ≤ most := by
  rw [digits, List.length_map]
  exact (Nat.length_toDigits_le_iff (by decide) positive).mpr below

theorem ofNat_short {n : Nat} (small : n < Number.integerLimit) :
    (ofNat n).digits.length ≤ Number.mostIntegerDigits := by
  have positive : 0 < Number.mostIntegerDigits := by
    simp only [Number.mostIntegerDigits]
    omega
  rw [Number.integerLimit_eq] at small
  exact ofNat_length positive small

end Numeral

theorem Text.ofInt_numeral (n : Int) : Text.ofInt n = (Numeral.ofNat n.natAbs).withSign (n < 0) := by
  cases n with
  | ofNat n => rfl
  | negSucc n => simp [Text.ofInt, Numeral.withSign, Numeral.ofNat, Numeral.digits, Text.ofNat, Text.inBase,
      Int.negSucc_lt_zero]

theorem Number.withSign_natAbs (n : Int) : Number.withSign (n < 0) n.natAbs = n := by
  unfold Number.withSign
  split
  · rename_i negative
    have below : n < 0 := by simpa using negative
    omega
  · rename_i other
    have above : ¬n < 0 := by simpa using other
    omega

theorem Text.ofInt_isNumber (n : Int) : Number.isNumber (Text.ofInt n) = true := by
  rw [ofInt_numeral]
  exact Numeral.isNumber _ _

theorem Text.parseInt_ofInt {n : Int} (small : n.natAbs < Number.integerLimit) :
    Number.parseInt (Text.ofInt n) = .ok (some n) := by
  rw [ofInt_numeral, Numeral.parseInt _ _ (Numeral.ofNat_short small), Numeral.ofNat_number, Number.withSign_natAbs]

namespace Identifier

variable (identifier : Identifier)

theorem cons : ∃ c rest, identifier.text = c :: rest ∧ isWordMark c ∧ Text.isDecimal c = false := by
  obtain ⟨c, rest, same⟩ := List.exists_cons_of_ne_nil identifier.filled
  have starts := identifier.starts
  rw [same] at starts
  exact ⟨c, rest, same, identifier.mark (by simp [same]), start_noDigit starts⟩

theorem trim : Text.trim identifier.text = identifier.text := Text.trim_marks fun _ => identifier.mark

theorem parseInt : Number.parseInt identifier.text = .ok none := by
  obtain ⟨c, rest, same, word, noDigit⟩ := identifier.cons
  rw [Number.parseInt, identifier.trim, same, Number.cutSign_word word]
  exact if_pos (.inr (by simp [noDigit]))

theorem parseDecimal : Number.parseDecimal identifier.text = none := by
  obtain ⟨c, rest, same, word, noDigit⟩ := identifier.cons
  have point : c ≠ '.' := by
    rintro rfl
    exact absurd word (by decide)
  rw [Number.parseDecimal, identifier.trim, same, Number.cutSign_word word]
  simp [Number.cutDigits, noDigit, point, guard, failure]

theorem parseTime : Time.parseTime identifier.text = .ok none := by
  obtain ⟨c, rest, same, word, noDigit⟩ := identifier.cons
  have noYear : Time.readYear? (c :: rest) = none := by
    simp [Time.readYear?, Time.takeDigits?, noDigit]
  rw [Time.parseTime, identifier.trim, same]
  simp [Time.readStamp?, Time.readNamed?, Time.readNumeric?, noYear]

theorem unreserved : Text.lower identifier.text ∉ Names.reserved := by
  have free := identifier.free
  simpa [Names.isReserved] using free

theorem namedConstant? : namedConstant? identifier.text = none := by
  apply List.lookup_eq_none_iff.mpr
  intro entry member
  have other : Text.lower identifier.text ≠ entry.1 := by
    intro same
    apply identifier.unreserved
    rw [same]
    exact List.mem_append_right _ (List.mem_map_of_mem member)
  simpa using other

theorem parseDouble : parseDouble identifier.text = .ok none := by
  simp [CommandScript.parseDouble, identifier.trim, identifier.parseDecimal, identifier.namedConstant?,
    identifier.parseTime]

theorem notTruth : ¬(Text.lower identifier.text = "true" ∨ Text.lower identifier.text = "false") := by
  have known : ∀ word : Text, word = "true" ∨ word = "false" → word ∈ Names.reserved := by
    rintro word (rfl | rfl) <;> simp [Names.reserved]
  exact fun truth => identifier.unreserved (known _ truth)

end Identifier

namespace Number

variable {s : Text} {mark : CodePoint}

/-- A character that no number is written with. -/
def Foreign (mark : CodePoint) : Prop := Text.isDecimal mark = false ∧ mark ∉ ("+-.eE" : Text)

instance (mark : CodePoint) : Decidable (Foreign mark) := inferInstanceAs (Decidable (_ ∧ _))

theorem cutSign_foreign (foreign : Foreign mark) (inside : mark ∈ s) : mark ∈ (cutSign s).2 := by
  have others : mark ≠ '-' ∧ mark ≠ '+' := by
    constructor <;> rintro rfl <;> exact absurd foreign (by decide)
  unfold cutSign
  split
  · simpa [others] using inside
  · simpa [others] using inside
  · exact inside

theorem cutDigits_foreign (foreign : Foreign mark) (inside : mark ∈ s) : mark ∈ (cutDigits s).2 := by
  have whole : s.takeWhile Text.isDecimal ++ s.dropWhile Text.isDecimal = s := List.takeWhile_append_dropWhile
  rw [← whole, List.mem_append] at inside
  rcases inside with digit | inside
  · cases foreign.1.symm.trans (List.mem_takeWhile_imp digit)
  · exact inside

theorem parseExponent_foreign (foreign : Foreign mark) (inside : mark ∈ s) : parseExponent s = none := by
  cases s with
  | nil => cases inside
  | cons first rest =>
      rw [parseExponent]
      by_cases exponent : first = 'e' ∨ first = 'E'
      · have inside : mark ∈ rest := by
          rcases List.mem_cons.mp inside with same | inside
          · subst same
            rcases exponent with rfl | rfl <;> exact absurd foreign (by decide)
          · exact inside
        have mixed : ¬((cutSign rest).2 ≠ [] ∧ (cutSign rest).2.all Text.isDecimal) := by
          rintro ⟨-, all⟩
          cases foreign.1.symm.trans (List.all_eq_true.mp all mark (cutSign_foreign foreign inside))
        rw [if_pos exponent]
        exact if_neg mixed
      · rw [if_neg exponent]

theorem isNumber_foreign (foreign : Foreign mark) (trimmed : Text.trim s = s) (inside : mark ∈ s) :
    isNumber s = false := by
  have noPoint : mark ≠ '.' := by
    rintro rfl
    exact absurd foreign (by decide)
  have inside := cutDigits_foreign foreign (cutSign_foreign foreign inside)
  simp only [isNumber, parseDecimal, trimmed]
  generalize (cutDigits (cutSign s).2).2 = after at inside
  split
  · simp [parseExponent_foreign foreign (cutDigits_foreign foreign (by simpa [noPoint] using inside))]
  · simp [parseExponent_foreign foreign inside]

end Number

namespace Formula

variable {bound : Option Level}

def numeral? {bound : Option Level} : Formula bound → Option Numeral
  | literal numeral => some numeral
  | plain inner => inner.numeral?
  | _ => none

theorem text_numeral {e : Formula bound} {numeral : Numeral} (alone : e.numeral? = some numeral) :
    e.text = numeral.digits := by
  induction e with
  | literal other =>
      cases alone
      rfl
  | plain inner ih => exact ih alone
  | name | group | signed | binary => cases alone

theorem text_compound {e : Formula bound} (compound : e.numeral? = none) :
    (∃ identifier : Identifier, e.text = identifier.text) ∨ .char ' ' ∈ e.text := by
  induction e with
  | literal => cases compound
  | name identifier => exact .inl ⟨identifier, rfl⟩
  | plain inner ih => exact ih compound
  | group | signed | binary => exact .inr (by simp [text])

end Formula

end CommandScript
