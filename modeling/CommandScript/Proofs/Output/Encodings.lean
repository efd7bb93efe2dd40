import CommandScript.Function.Builtin
import Mathlib.Algebra.Group.Int.Defs

/-! What bytes stand for. Bytes are read as a number with the lowest byte first, with or without a sign, and the bytes
that are written for integers and for the elements of buffers are read back as these. -/

namespace CommandScript

namespace Buffer

def unsigned : List UInt8 → Nat
  | [] => 0
  | byte :: rest => byte.toNat + 256 * unsigned rest

def signed (bytes : List UInt8) : Int := Int.bmod (unsigned bytes) (Number.twoTo (8 * bytes.length))

theorem length_littleEndian (width n : Nat) : (littleEndian width n).length = width := by
  induction width generalizing n with
  | zero => rfl
  | succ width ih => rw [littleEndian, List.length_cons, ih]

theorem unsigned_littleEndian (width n : Nat) : unsigned (littleEndian width n) = n % Number.twoTo (8 * width) := by
  induction width generalizing n with
  | zero => exact (Nat.mod_one n).symm
  | succ width ih =>
      have low : (UInt8.ofNat (n % 256)).toNat = n % 256 := by
        rw [UInt8.toNat_ofNat']
        exact Nat.mod_eq_of_lt (Nat.mod_lt n (by decide))
      have scale : Number.twoTo (8 * (width + 1)) = 256 * Number.twoTo (8 * width) := by
        rw [Nat.mul_succ, Nat.add_comm]
        exact Nat.pow_add 2 8 (8 * width)
      rw [littleEndian, unsigned, ih, low, scale, Nat.mod_mul]

theorem length_integerBytes (width : Nat) (n : Int) : (integerBytes width n).length = width :=
  length_littleEndian width _

theorem signed_integerBytes (width : Nat) (n : Int) :
    signed (integerBytes width n) = Int.bmod n (Number.twoTo (8 * width)) := by
  have positive : (0 : Int) < (Number.twoTo (8 * width) : Int) := Int.natCast_pos.mpr (Nat.two_pow_pos (8 * width))
  have low : 0 ≤ n % (Number.twoTo (8 * width) : Int) := Int.emod_nonneg n (by omega)
  rw [signed, length_integerBytes, integerBytes, unsigned_littleEndian, Int.natCast_emod, Int.toNat_of_nonneg low,
    Int.emod_emod, Int.emod_bmod]

theorem inWidth_iff {bits : Nat} {n : Int} : inWidth bits n = true ↔ -2 ^ (bits - 1) ≤ n ∧ n < 2 ^ (bits - 1) := by
  have half : (Number.twoTo (bits - 1) : Int) = 2 ^ (bits - 1) := Int.natCast_pow 2 (bits - 1)
  rw [inWidth, half]
  simp

theorem bmod_inWidth {bits : Nat} (positive : 0 < bits) {n : Int} (within : inWidth bits n = true) :
    Int.bmod n (Number.twoTo bits) = n := by
  have scale : Number.twoTo bits = 2 * Number.twoTo (bits - 1) := by
    obtain ⟨more, rfl⟩ : ∃ more, bits = more + 1 := ⟨bits - 1, by omega⟩
    exact Nat.pow_succ'
  obtain ⟨low, high⟩ : -(Number.twoTo (bits - 1) : Int) ≤ n ∧ n < Number.twoTo (bits - 1) := by
    simpa [inWidth] using within
  exact Int.bmod_eq_of_le (by omega) (by omega)

/-- Bytes are the little-endian ones of the element at a place. -/
def IsElement (buffer : Buffer) (place : Nat) (bytes : List UInt8) : Prop :=
  match buffer with
  | float32 bits => ∃ b, bits[place]? = some b ∧ bytes.length = 4 ∧ unsigned bytes = b % Number.twoTo 32
  | float64 values => ∃ x, values[place]? = some x ∧ bytes.length = 8 ∧ unsigned bytes = x.toBits.toNat
  | int32 values => ∃ n, values[place]? = some n ∧ bytes.length = 4 ∧ signed bytes = Int.bmod n (Number.twoTo 32)
  | int64 values => ∃ n, values[place]? = some n ∧ bytes.length = 8 ∧ signed bytes = Int.bmod n (Number.twoTo 64)

/-- Bytes are those of a number of elements from a place on, one element after another. -/
def AreElements (buffer : Buffer) (start count : Nat) (bytes : List UInt8) : Prop :=
  ∃ words : List (List UInt8), bytes = words.flatten ∧ words.length = count ∧
    ∀ i word, words[i]? = some word → buffer.IsElement (start + i) word

theorem length_elementBytes (buffer : Buffer) : buffer.elementBytes.length = buffer.size := by
  cases buffer <;> exact List.length_map _

theorem elementBytes_isElement {buffer : Buffer} {place : Nat} {word : List UInt8}
    (here : buffer.elementBytes[place]? = some word) : buffer.IsElement place word := by
  have source {α : Type} {values : List α} {encode : α → List UInt8}
    (mapped : (values.map encode)[place]? = some word) :
      ∃ x, values[place]? = some x ∧ encode x = word := by
    rwa [List.getElem?_map, Option.map_eq_some_iff] at mapped
  cases buffer with
  | float32 bits =>
      obtain ⟨b, inside, rfl⟩ := source here
      exact ⟨b, inside, length_littleEndian 4 b, unsigned_littleEndian 4 b⟩
  | float64 values =>
      obtain ⟨x, inside, rfl⟩ := source here
      have within : x.toBits.toNat % Number.twoTo 64 = x.toBits.toNat := Nat.mod_eq_of_lt x.toBits.toNat_lt
      exact ⟨x, inside, length_littleEndian 8 _, (unsigned_littleEndian 8 _).trans within⟩
  | int32 values =>
      obtain ⟨n, inside, rfl⟩ := source here
      exact ⟨n, inside, length_integerBytes 4 n, signed_integerBytes 4 n⟩
  | int64 values =>
      obtain ⟨n, inside, rfl⟩ := source here
      exact ⟨n, inside, length_integerBytes 8 n, signed_integerBytes 8 n⟩

theorem bytes_areElements {buffer : Buffer} {start count : Nat} (inside : start + count ≤ buffer.size) :
    buffer.AreElements start count (buffer.bytes start count).2 := by
  refine ⟨(buffer.elementBytes.drop start).take count, rfl, ?_, fun i word here => ?_⟩
  · rw [List.length_take, List.length_drop, length_elementBytes]
    omega
  · rw [List.getElem?_take] at here
    split at here
    · rw [List.getElem?_drop] at here
      exact elementBytes_isElement here
    · cases here

end Buffer

end CommandScript
