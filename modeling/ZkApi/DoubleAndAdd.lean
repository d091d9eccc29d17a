import Mathlib.Algebra.Group.Basic
import Mathlib.Algebra.Group.Nat.Even
import Mathlib.Data.Nat.Bitwise

/-!
# Double-and-add

Multiples of an element of a monoid, computed from the binary digits of the
factor, the lowest digit first.
-/

namespace DoubleAndAdd

/-- The lowest digits of a number. -/
def lowBits : Nat → Nat → List Bool
  | 0, _ => []
  | count + 1, value => value.testBit 0 :: lowBits count (value / 2)

/-- The number with these digits. -/
def ofBits : List Bool → Nat
  | [] => 0
  | bit :: bits => bit.toNat + 2 * ofBits bits

theorem ofBits_lowBits {count value : Nat} (fits : value < 2 ^ count) :
    ofBits (lowBits count value) = value := by
  induction count generalizing value with
  | zero =>
      rw [pow_zero] at fits
      rw [Nat.lt_one_iff.mp fits]
      rfl
  | succ count ih =>
      have half : value / 2 < 2 ^ count := by
        rw [pow_succ] at fits
        omega
      rw [lowBits, ofBits, ih half, Nat.testBit_zero]
      rcases Nat.mod_two_eq_zero_or_one value with even | odd
      · simp [even]
        omega
      · simp [odd]
        omega

section Monoid

variable {Point : Type} [AddCommMonoid Point]

/-- Add the doubled points at the digits that are set. -/
def addDoubled (result temp : Point) : List Bool → Point
  | [] => result
  | bit :: bits => addDoubled (if bit then result + temp else result) (temp + temp) bits

theorem addDoubled_eq (result temp : Point) (bits : List Bool) :
    addDoubled result temp bits = result + ofBits bits • temp := by
  induction bits generalizing result temp with
  | nil => rw [addDoubled, ofBits, zero_nsmul, add_zero]
  | cons bit bits ih =>
      have doubled : ofBits bits • (temp + temp) = (2 * ofBits bits) • temp := by
        rw [← two_nsmul, ← mul_nsmul']
        congr 1
        omega
      rw [addDoubled, ih, ofBits, doubled, add_nsmul]
      cases bit with
      | false => simp
      | true => rw [if_pos rfl, Bool.toNat_true, one_nsmul, add_assoc]

end Monoid

end DoubleAndAdd
