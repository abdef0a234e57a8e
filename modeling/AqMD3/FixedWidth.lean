import Mathlib.Algebra.Group.Int.Defs
import Mathlib.Algebra.Group.Nat.Defs

/-!
Fixed-width integers read as mathematical ones. The sums and differences below
are exact while they stay inside the width; outside it they wrap, and a caller
that needs the exact value has to bring the bound. Conversions follow the
hardware: widening an unsigned value keeps it, narrowing drops high bits.
-/

namespace AqMD3.FixedWidth

theorem int32_add_exact (a b : Int32) (low : -2 ^ 31 ≤ a.toInt + b.toInt)
    (high : a.toInt + b.toInt < 2 ^ 31) : (a + b).toInt = a.toInt + b.toInt := by
  rw [Int32.toInt_add, Int.bmod_def]
  omega

theorem int32_sub_exact (a b : Int32) (low : -2 ^ 31 ≤ a.toInt - b.toInt)
    (high : a.toInt - b.toInt < 2 ^ 31) : (a - b).toInt = a.toInt - b.toInt := by
  rw [Int32.toInt_sub, Int.bmod_def]
  omega

theorem int32_ofNat_exact (n : Nat) (bound : n < 2 ^ 31) : (Int32.ofNat n).toInt = n :=
  Int32.toInt_ofNat_of_lt bound

theorem int32_bounds (a : Int32) : -2 ^ 31 ≤ a.toInt ∧ a.toInt < 2 ^ 31 :=
  ⟨a.le_toInt, a.toInt_lt⟩

theorem uint64_add_exact (a b : UInt64) (bound : a.toNat + b.toNat < 2 ^ 64) :
    (a + b).toNat = a.toNat + b.toNat := by
  rw [UInt64.toNat_add]
  omega

theorem uint64_sub_exact (a b : UInt64) (order : b.toNat ≤ a.toNat) :
    (a - b).toNat = a.toNat - b.toNat := by
  have width := a.toNat_lt
  rw [UInt64.toNat_sub]
  omega

theorem uint32_reinterpret (a : UInt32) : a.toInt32.toInt = (a.toNat : Int).bmod (2 ^ 32) :=
  BitVec.toInt_eq_toNat_bmod a.toBitVec

theorem uint32_signed_exact (a : UInt32) (bound : a.toNat < 2 ^ 31) : a.toInt32.toInt = a.toNat := by
  rw [uint32_reinterpret, Int.bmod_def]
  omega

/-- Narrowing an unsigned 64-bit value to a signed 32-bit one keeps it below 2^31. -/
theorem uint64_narrow_exact (a : UInt64) (bound : a.toNat < 2 ^ 31) :
    a.toUInt32.toInt32.toInt = a.toNat := by
  have low : a.toUInt32.toNat = a.toNat := by
    rw [UInt64.toNat_toUInt32]
    omega
  rw [uint32_signed_exact _ (by omega), low]

theorem int32_reinterpret (a : Int32) : a.toInt = (a.toUInt32.toNat : Int).bmod (2 ^ 32) :=
  BitVec.toInt_eq_toNat_bmod a.toBitVec

/-- A nonnegative int passed as an unsigned one. -/
theorem int32_unsigned_exact (a : Int32) (nonneg : 0 ≤ a.toInt) :
    (a.toUInt32.toNat : Int) = a.toInt := by
  have signed := int32_reinterpret a
  have width := a.toUInt32.toNat_lt
  rw [Int.bmod_def] at signed
  omega

/-- An int compared with an unsigned 64-bit value is taken modulo 2^64. -/
theorem int32_widen (a : Int32) : (a.toInt64.toUInt64.toNat : Int) = a.toInt % 2 ^ 64 := by
  have signed : a.toInt64.toBitVec.toInt = a.toInt := Int32.toInt_toInt64 a
  have width := a.toInt64.toBitVec.isLt
  change (a.toInt64.toBitVec.toNat : Int) = a.toInt % 2 ^ 64
  rw [BitVec.toInt_eq_toNat_cond] at signed
  split at signed <;> omega

/-- A nonnegative int compared with an unsigned 64-bit value keeps its value. -/
theorem int32_widen_exact (a : Int32) (nonneg : 0 ≤ a.toInt) :
    (a.toInt64.toUInt64.toNat : Int) = a.toInt := by
  have width := a.toInt_lt
  rw [int32_widen]
  omega

theorem uint64_signed_exact (a : UInt64) (bound : a.toNat < 2 ^ 63) :
    a.toInt64.toInt = a.toNat := by
  change a.toBitVec.toInt = a.toBitVec.toNat
  have same : a.toNat = a.toBitVec.toNat := rfl
  rw [BitVec.toInt_eq_toNat_cond]
  split <;> omega

/-- A difference of unsigned values read as a signed one is the difference itself. -/
theorem uint64_signed_sub (a b : UInt64) (left : a.toNat < 2 ^ 63) (right : b.toNat < 2 ^ 63) :
    (a - b).toInt64.toInt = a.toNat - b.toNat := by
  rw [UInt64.toInt64_sub, Int64.toInt_sub, uint64_signed_exact a left, uint64_signed_exact b right,
    Int.bmod_def]
  omega

end AqMD3.FixedWidth
