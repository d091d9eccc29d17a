import Mathlib.Data.Int.ModEq

/-!
# Fixed-width integer conversions

Saturating arithmetic on 64-bit unsigned integers and the two conversions a
signed 64-bit column applies to an unsigned 128-bit amount.  A 128-bit amount
is a natural number here; both conversions are stated modulo their width.
-/

namespace MachineIntegers

/-- Addition that stops at the largest 64-bit value. -/
def saturatingAdd (first second : UInt64) : UInt64 :=
  UInt64.ofNat (min (first.toNat + second.toNat) (2 ^ 64 - 1))

/-- Subtraction that stops at zero. -/
def saturatingSub (first second : UInt64) : UInt64 :=
  UInt64.ofNat (first.toNat - second.toNat)

@[simp]
theorem toNat_saturatingAdd (first second : UInt64) :
    (saturatingAdd first second).toNat =
      min (first.toNat + second.toNat) (2 ^ 64 - 1) := by
  unfold saturatingAdd
  rw [UInt64.toNat_ofNat_of_lt']
  have := first.toNat_lt
  exact lt_of_le_of_lt (Nat.min_le_right _ _) (by decide)

@[simp]
theorem toNat_saturatingSub (first second : UInt64) :
    (saturatingSub first second).toNat = first.toNat - second.toNat := by
  unfold saturatingSub
  rw [UInt64.toNat_ofNat_of_lt']
  exact lt_of_le_of_lt (Nat.sub_le _ _) first.toNat_lt

/-- A 128-bit amount as a signed 64-bit integer keeps its low 64 bits. -/
def asI64 (amount : Nat) : Int64 :=
  Int64.ofNat amount

/-- A signed 64-bit integer as a 128-bit amount is sign-extended. -/
def asU128 (column : Int64) : Nat :=
  (column.toInt % 2 ^ 128).toNat

theorem asU128_asI64 {amount : Nat} (fits : amount < 2 ^ 63) :
    asU128 (asI64 amount) = amount := by
  unfold asU128 asI64
  rw [Int64.toInt_ofNat_of_lt fits]
  have small : (amount : Int) % 2 ^ 128 = amount :=
    Int.emod_eq_of_lt (by omega) (by
      have : (amount : Int) < 2 ^ 63 := by exact_mod_cast fits
      omega)
  rw [small]
  simp

/-- Writing back an amount that was read from a signed column stores the same
column again, whatever the amount was. -/
theorem asI64_asU128 (column : Int64) : asI64 (asU128 column) = column := by
  unfold asI64 asU128
  have nonneg : 0 ≤ column.toInt % 2 ^ 128 :=
    Int.emod_nonneg _ (by decide)
  have back : Int64.ofInt (column.toInt % 2 ^ 128) = column := by
    apply Int64.toInt_inj.mp
    rw [Int64.toInt_ofInt]
    have bounds : -2 ^ 63 ≤ column.toInt ∧ column.toInt < 2 ^ 63 :=
      ⟨column.le_toInt, column.toInt_lt⟩
    have wide : column.toInt % 2 ^ 128 % 2 ^ 64 = column.toInt % 2 ^ 64 :=
      Int.emod_emod_of_dvd _ ⟨2 ^ 64, by decide⟩
    simp only [Int.bmod, Int64.size]
    omega
  calc Int64.ofNat (column.toInt % 2 ^ 128).toNat
      = Int64.ofInt ((column.toInt % 2 ^ 128).toNat : Int) := by
        rw [Int64.ofInt_eq_ofNat]
    _ = column := by rw [Int.toNat_of_nonneg nonneg, back]

/-- A 16-bit status as a signed 32-bit column and back. -/
def u16AsI32 (value : UInt16) : Int32 :=
  value.toUInt32.toInt32

def i32AsU16 (column : Int32) : UInt16 :=
  column.toUInt32.toUInt16

@[simp]
theorem i32AsU16_u16AsI32 (value : UInt16) : i32AsU16 (u16AsI32 value) = value := by
  simp [i32AsU16, u16AsI32]

end MachineIntegers
