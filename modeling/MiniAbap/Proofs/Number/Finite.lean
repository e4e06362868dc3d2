import Mathlib
import MiniAbap.Number.Whole

/-!
Finite numbers stay finite. A number is finite unless its exponent field is
full, and neither cutting the fraction nor rounding to decimals fills it.
-/

namespace MiniAbap.Number

open Float.Model (Format UnpackedFloat)
open Float.Model.UnpackedFloat (unpack unpackExponent)

def fullField : Nat := 2047

-- `exponentField` of a number that has not been made from its word yet.
def wordField (bits : UInt64) : Nat :=
  ((bits >>> 52) &&& 0x7ff).toNat

theorem toNat_unpackExponent (bits : UInt64) :
    (@unpackExponent Format.binary64 bits.toBitVec).toNat = wordField bits := by
  have ones : (0x7ff : UInt64).toNat = 2 ^ 11 - 1 := by decide
  simp only [wordField, UInt64.toNat_and, UInt64.toNat_shiftRight]
  rw [ones, Nat.and_two_pow_sub_one_eq_mod]
  rfl

theorem isFinite_unpack (bits : BitVec 64) :
    (unpack Format.binary64 bits).isFinite = true ↔
      (@unpackExponent Format.binary64 bits).toNat ≠ fullField := by
  have full : @unpackExponent Format.binary64 bits = -1#_ ↔
      (@unpackExponent Format.binary64 bits).toNat = fullField := by
    rw [← BitVec.toNat_inj]
    rfl
  rw [ne_eq, ← full]
  simp only [unpack]
  split
  · split <;> simp_all [UnpackedFloat.isFinite]
  · split
    · split <;> simp_all [UnpackedFloat.isFinite]
    · simp_all [UnpackedFloat.isFinite]

theorem isFinite_iff (x : Float) : x.isFinite = true ↔ exponentField x ≠ fullField := by
  have spelled := isFinite_unpack x.toBits.toBitVec
  rw [toNat_unpackExponent] at spelled
  exact spelled

-- Words that are not finite may be changed on the way: only one of them stands for
-- what is not a number.
theorem toBits_ofBits (bits : UInt64) (finite : wordField bits ≠ fullField) :
    (Float.ofBits bits).toBits = bits := by
  have number : ¬ @UnpackedFloat.isNaNBits Format.binary64 bits.toBitVec = true := by
    intro isNaN
    have full := (of_decide_eq_true isNaN).1
    apply finite
    rw [← toNat_unpackExponent, full]
    rfl
  apply UInt64.toBitVec_inj.mp
  have packed := @UnpackedFloat.pack_unpack Format.binary64 bits.toBitVec (by decide)
  rw [if_neg number] at packed
  exact packed

theorem isFinite_ofBits (bits : UInt64) (finite : wordField bits ≠ fullField) :
    (Float.ofBits bits).isFinite = true := by
  apply (isFinite_iff _).mpr
  change wordField (Float.ofBits bits).toBits ≠ fullField
  rw [toBits_ofBits bits finite]
  exact finite

-- The fraction stands in the lowest 52 bits, below the exponent field.
theorem wordField_clear (bits count : UInt64) (within : count.toNat ≤ 52) :
    wordField ((bits >>> count) <<< count) = wordField bits := by
  have small : bits.toNat / 2 ^ count.toNat * 2 ^ count.toNat < 2 ^ 64 :=
    Nat.lt_of_le_of_lt (Nat.div_mul_le_self _ _) bits.toNat_lt
  have parts : 2 ^ 52 = 2 ^ count.toNat * 2 ^ (52 - count.toNat) := by
    rw [← Nat.pow_add, Nat.add_sub_cancel' within]
  have upper : bits.toNat / 2 ^ count.toNat * 2 ^ count.toNat / 2 ^ 52 =
      bits.toNat / 2 ^ 52 := by
    rw [parts, Nat.mul_comm, Nat.mul_div_mul_left _ _ (Nat.two_pow_pos _),
      Nat.div_div_eq_div_mul]
  have cleared : ((bits >>> count) <<< count).toNat =
      bits.toNat / 2 ^ count.toNat * 2 ^ count.toNat := by
    have width : count.toNat % 64 = count.toNat := Nat.mod_eq_of_lt (by omega)
    rw [UInt64.toNat_shiftLeft, UInt64.toNat_shiftRight, width,
      Nat.shiftRight_eq_div_pow, Nat.shiftLeft_eq, Nat.mod_eq_of_lt small]
  simp only [wordField, UInt64.toNat_and, UInt64.toNat_shiftRight, cleared]
  rw [Nat.shiftRight_eq_div_pow, Nat.shiftRight_eq_div_pow]
  exact congrArg (· &&& _) upper

theorem isFinite_truncate (x : Float) (finite : x.isFinite = true) :
    (truncate x).isFinite = true := by
  fun_cases truncate x with
  | case1 => decide
  | case2 atLeastOne fractional fractionBits =>
      have within : fractionBits.toNat ≤ 52 := by
        have spelled : fractionBits.toNat = (wholeField - exponentField x) % 2 ^ 64 := rfl
        simp only [wholeField, oneField] at *
        omega
      apply isFinite_ofBits
      rw [wordField_clear _ _ within]
      exact (isFinite_iff x).mp finite
  | case3 => exact finite

-- Rounding checks its own result, and keeps the number where that is not finite.
theorem isFinite_roundToDecimals (x : Float) (decimals : Nat) (finite : x.isFinite = true) :
    (roundToDecimals x decimals).isFinite = true := by
  fun_cases roundToDecimals x decimals <;> assumption

theorem truncate_zero : truncate 0 = 0 := by
  decide

end MiniAbap.Number
