import CommandScript.Proofs.Integers.Marking

/-! Runs of prefix operators. Applied one at a time from right to left, each operator sees the number that the next one
leaves. The scanner counts instead: an odd number of minus signs negates, and an odd number of inversions inverts after
that. This module says what the two ways make of a number, and when they agree. -/

namespace CommandScript

inductive Prefix where
  | sign (mark : Sign)
  | bang
  deriving DecidableEq, Repr

namespace Prefix

def isMinus : Prefix → Bool
  | sign .minus => true
  | _ => false

def isBang : Prefix → Bool
  | bang => true
  | _ => false

/-- One for zero, and zero for any other number. -/
def inversion (n : Int) : Int := if n = 0 then 1 else 0

def apply : Prefix → Int → Int
  | sign mark, n => mark.apply n
  | bang, n => inversion n

def applied (run : List Prefix) (n : Int) : Int := run.foldr apply n

def odd (kind : Prefix → Bool) (run : List Prefix) : Bool := decide (run.countP kind % 2 = 1)

def negates (run : List Prefix) : Bool := odd isMinus run

def inverts (run : List Prefix) : Bool := odd isBang run

def signed (negated : Bool) (n : Int) : Int := if negated then -n else n

/-- The operators of a run counted: first the sign, then the inversion. -/
def counted (run : List Prefix) (n : Int) : Int :=
  if inverts run then inversion (signed (negates run) n) else signed (negates run) n

theorem odd_cons (kind : Prefix → Bool) (op : Prefix) (run : List Prefix) :
    odd kind (op :: run) = (kind op != odd kind run) := by
  rw [odd, odd, List.countP_cons, Bool.eq_iff_iff]
  cases kind op <;> simp
  omega

theorem negates_cons (op : Prefix) (run : List Prefix) : negates (op :: run) = (op.isMinus != negates run) :=
  odd_cons isMinus op run

theorem inverts_cons (op : Prefix) (run : List Prefix) : inverts (op :: run) = (op.isBang != inverts run) :=
  odd_cons isBang op run

theorem signed_eq_zero {negated : Bool} {n : Int} : signed negated n = 0 ↔ n = 0 := by
  cases negated <;> simp [signed]

theorem inversion_signed (negated : Bool) (n : Int) : inversion (signed negated n) = inversion n := by
  simp only [inversion, signed_eq_zero]

/-- Signs before the first inversion are what is left of the signs. -/
def outer (run : List Prefix) : List Prefix := run.takeWhile (!isBang ·)

theorem inversion_thrice (n : Int) : inversion (inversion (inversion n)) = inversion n := by
  by_cases zero : n = 0 <;> simp [inversion, zero]

theorem apply_sign (mark : Sign) (negated : Bool) (n : Int) :
    mark.apply (signed negated n) = signed (isMinus (sign mark) != negated) n := by
  cases mark <;> cases negated <;> simp [Sign.apply, signed, isMinus]

theorem inverts_none {run : List Prefix} (none : run.any isBang = false) : inverts run = false := by
  have zero : run.countP isBang = 0 := List.countP_eq_zero.mpr fun op member => by
    simpa using List.any_eq_false.mp none op member
  simp [inverts, odd, zero]

theorem applied_signs {run : List Prefix} (none : run.any isBang = false) (n : Int) :
    applied run n = signed (negates run) n := by
  induction run with
  | nil => rfl
  | cons op run ih =>
      cases op with
      | bang => cases none
      | sign mark =>
          have inner := ih none
          rw [applied, List.foldr_cons, ← applied, inner, apply, apply_sign, negates_cons]

/-- With an inversion, the innermost number matters only in being zero or not. -/
theorem applied_inverted {run : List Prefix} (found : run.any isBang = true) (n : Int) :
    applied run n = signed (negates (outer run)) (if inverts run then inversion n else inversion (inversion n)) := by
  induction run with
  | nil => cases found
  | cons op run ih =>
      have step : applied (op :: run) n = op.apply (applied run n) := rfl
      cases op with
      | bang =>
          have alone : signed (negates (outer (bang :: run))) = signed false := rfl
          rw [step, inverts_cons, alone]
          cases more : run.any isBang with
          | false => rw [applied_signs more, apply, inversion_signed, inverts_none more]; rfl
          | true =>
              rw [ih more, apply, inversion_signed]
              cases inverts run
              · exact inversion_thrice n
              · rfl
      | sign mark =>
          have signs : negates (outer (sign mark :: run)) = (isMinus (sign mark) != negates (outer run)) :=
            negates_cons (sign mark) (outer run)
          have same : inverts (sign mark :: run) = inverts run := by
            rw [inverts_cons, show isBang (sign mark) = false from rfl, Bool.false_bne]
          rw [step, ih found, apply, apply_sign, signs, same]

/-- The cases in which it does not matter that the operators are counted: there is no inversion; there is an odd number
of inversions, and the signs before the first one keep the number or it is not zero; there is an even number of them,
and the number is zero or comes out of the signs as the one that those before the first inversion make of one. -/
def Agrees (run : List Prefix) (n : Int) : Prop :=
  if run.any isBang then
    if inverts run then negates (outer run) = false ∨ n ≠ 0
    else n = 0 ∨ n = signed (negates run != negates (outer run)) 1
  else True

theorem counted_eq_applied_iff (run : List Prefix) (n : Int) : counted run n = applied run n ↔ Agrees run n := by
  unfold Agrees
  cases found : run.any isBang with
  | false =>
      simp [counted, inverts_none found, applied_signs found]
  | true =>
      rw [counted, applied_inverted found, inversion_signed]
      cases inverts run with
      | true =>
          simp only [if_true]
          cases negates (outer run) with
          | false => simp [signed]
          | true => by_cases zero : n = 0 <;> simp [signed, inversion, zero]
      | false =>
          simp only [Bool.false_eq_true, if_false, if_true]
          by_cases zero : n = 0
          · simp [zero, inversion, signed]
          · cases negates run with
            | false => cases negates (outer run) <;> simp [signed, inversion, zero]
            | true =>
                cases negates (outer run) with
                | false =>
                    simp [signed, inversion, zero]
                    omega
                | true => simp [signed, inversion, zero]

end Prefix

end CommandScript
