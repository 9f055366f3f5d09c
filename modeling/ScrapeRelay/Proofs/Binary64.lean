import Mathlib
import ScrapeRelay.Binary64

/-!
# Counts of 64 bits are finite

Converting a count rounds it once or twice, and each time the leading bit moves up by one place at
most. A count of 64 bits stays far below the largest finite value (`Binary64.isFinite_ofInt`).
-/

namespace ScrapeRelay

namespace Rounding

open Float.Model Float.Model.UnpackedFloat

variable {mantissa : Nat} {exponent place : Int}

/-- A finite value whose leading bit stands at that place at most, where the unit stands at 1. -/
inductive Within (place : Int) : UnpackedFloat → Prop
  | zero (sign : Sign) : Within place (.zero sign)
  | finite {sign : Sign} {mantissa : Nat} {exponent : Int} (filled : 0 < mantissa)
      (low : totalExponent mantissa exponent ≤ place) :
      Within place (.finite sign mantissa exponent filled)

theorem within_finite {sign : Sign} (bits : Nat) (filled : 0 < mantissa)
    (fits : mantissa < 2 ^ bits) (low : bits + exponent ≤ place) :
    Within place (.finite sign mantissa exponent filled) := by
  have leading := (Nat.log2_lt filled.ne').mpr fits
  exact .finite filled (by simp only [totalExponent]; omega)

theorem mantissa_shiftRight (extended : ExtendedMantissa) (places : Nat) :
    (extended >>> places).mantissa = extended.mantissa / 2 ^ places := by
  induction places with
  | zero => simp [HShiftRight.hShiftRight, Nat.repeat]
  | succ places ih =>
      change (extended >>> places).mantissa / 2 = _
      rw [ih, Nat.div_div_eq_div_mul, Nat.pow_succ]

theorem mantissa_ofMantissaAndAccuracy (accuracy : Accuracy) :
    (ExtendedMantissa.ofMantissaAndAccuracy mantissa accuracy).mantissa = mantissa := by
  cases accuracy with
  | exact => rfl
  | inexact order => cases order <;> rfl

theorem roundedMantissa_le (extended : ExtendedMantissa) :
    extended.roundedMantissa ≤ extended.mantissa + 1 := by
  obtain ⟨mantissa, roundBit, stickyBit⟩ := extended
  cases roundBit <;> cases stickyBit <;>
    simp only [ExtendedMantissa.roundedMantissa, ExtendedMantissa.accuracy,
      Accuracy.roundToNearestEven] <;> omega

theorem log2_lt_of_lt {value bits : Nat} (fits : value < 2 ^ bits) (some : 0 < bits) :
    value.log2 < bits := by
  cases value with
  | zero => simpa using some
  | succ value => exact (Nat.log2_lt (Nat.succ_ne_zero value)).mpr fits

theorem log2_succ_le (value : Nat) : (value + 1).log2 ≤ value.log2 + 1 :=
  Nat.lt_succ_iff.mp ((Nat.log2_lt (Nat.succ_ne_zero value)).mpr (by
    have below := Nat.lt_log2_self (n := value)
    have double := Nat.pow_succ (n := 2) (m := value.log2 + 1)
    omega))

theorem log2_mono {left right : Nat} (le : left ≤ right) : left.log2 ≤ right.log2 := by
  rw [Nat.log2_eq_log_two, Nat.log2_eq_log_two]
  exact Nat.log_mono_right le

theorem targetExponent_binary64 (place : Int) :
    Format.binary64.targetExponent place = max (place - 53) (-1074) := rfl

/-- Dropping the bits below the target exponent leaves the leading bit in its place, or leaves no
bit at all. -/
theorem shift_within (accuracy : Accuracy) (low : totalExponent mantissa exponent ≤ place)
    (normal : -1073 ≤ place) :
    totalExponent (shiftToTargetExponent .binary64 mantissa exponent accuracy).1.mantissa
      (shiftToTargetExponent .binary64 mantissa exponent accuracy).2 ≤ place := by
  simp only [shiftToTargetExponent, shiftToExponent]
  rw [mantissa_shiftRight, mantissa_ofMantissaAndAccuracy, targetExponent_binary64]
  simp only [totalExponent] at low ⊢
  rw [Nat.log2_eq_log_two, Nat.log_div_base_pow, ← Nat.log2_eq_log_two]
  omega

/-- Rounding moves the leading bit up by one place at most. -/
theorem roundWithAccuracy_within (place : Int) (sign : Sign) (accuracy : Accuracy)
    (low : totalExponent mantissa exponent ≤ place) (normal : -1073 ≤ place) :
    Within (place + 1) (roundWithAccuracy .binary64 sign mantissa exponent accuracy) := by
  have kept := shift_within accuracy low normal
  rcases shifted : shiftToTargetExponent .binary64 mantissa exponent accuracy with
    ⟨first, reached⟩
  rw [shifted] at kept
  have rounded : totalExponent first.roundedMantissa reached ≤ place + 1 := by
    have carry := (log2_mono (roundedMantissa_le first)).trans (log2_succ_le _)
    simp only [totalExponent] at kept ⊢
    omega
  simp only [roundWithAccuracy, shifted]
  split
  · exact .zero sign
  · exact .finite _ (shift_within .exact rounded (by omega))

theorem mul_within (leftPlace rightPlace : Int) {left right : UnpackedFloat}
    (leftLow : Within leftPlace left) (rightLow : Within rightPlace right)
    (normal : -1073 ≤ leftPlace + rightPlace) :
    Within (leftPlace + rightPlace + 1) (mul .binary64 left right) := by
  cases leftLow with
  | zero => cases rightLow <;> exact .zero _
  | @finite _ mantissa exponent filled leftLow =>
      cases rightLow with
      | zero => exact .zero _
      | @finite _ other otherExponent otherFilled rightLow =>
          refine roundWithAccuracy_within _ _ _ ?_ normal
          have leading : (mantissa * other).log2 ≤ mantissa.log2 + other.log2 + 1 := by
            refine Nat.lt_succ_iff.mp ((Nat.log2_lt (Nat.mul_pos filled otherFilled).ne').mpr ?_)
            calc mantissa * other
                < 2 ^ (mantissa.log2 + 1) * 2 ^ (other.log2 + 1) :=
                  Nat.mul_lt_mul'' Nat.lt_log2_self Nat.lt_log2_self
              _ = 2 ^ (mantissa.log2 + other.log2 + 1).succ := by
                  rw [← Nat.pow_add]
                  congr 1
                  omega
          simp only [totalExponent] at leftLow rightLow ⊢
          omega

/-- The exponent bits of a small value are not those of the infinities. -/
theorem unpackExponent_pack_le {value : UnpackedFloat} (low : Within place value)
    (small : place ≤ 900) :
    (unpackExponent (UnpackedFloat.pack .binary64 value)).toNat ≤ (place + 1074).toNat := by
  have bias : Format.binary64.exponentBias = 1023 := rfl
  cases low with
  | zero sign =>
      simp only [UnpackedFloat.pack, packedZero, unpackExponent_packComponents]
      exact Nat.zero_le _
  | finite filled low =>
      simp only [totalExponent] at low
      simp only [UnpackedFloat.pack, bias]
      split
      · omega
      · split
        · rw [unpackExponent_packComponents, BitVec.toNat_ofNat]
          exact (Nat.mod_le _ _).trans (by omega)
        · rw [unpackExponent_packComponents]
          exact Nat.zero_le _

/-- The exponent bits bound the place of the leading bit, of subnormal values as of all others. -/
theorem unpack_within (limit : Nat) {bits : BitVec Format.binary64.numBits}
    (low : (unpackExponent bits).toNat ≤ limit) (finite : limit < 2047) :
    Within (limit - 1020) (UnpackedFloat.unpack .binary64 bits) := by
  have bias : Format.binary64.exponentBias = 1023 := rfl
  have notAll : unpackExponent bits ≠ -1#_ := by
    intro all
    rw [all] at low
    exact absurd (low.trans_lt finite) (by decide)
  unfold UnpackedFloat.unpack
  dsimp only
  rw [if_neg notAll]
  split
  · split
    · exact .zero _
    · exact within_finite 52 _ (unpackMantissa bits).isLt (by simp only [bias]; omega)
  · exact within_finite 53 _ (1#1 ++ unpackMantissa bits).isLt (by simp only [bias]; omega)

end Rounding

namespace Binary64

open Rounding Float.Model Float.Model.UnpackedFloat

variable {count : Nat}

theorem exponentField_eq (bits : UInt64) :
    exponentField ⟨bits⟩ = (@unpackExponent .binary64 bits.toBitVec).toNat := by
  simp [exponentField, fractionLimit, unpackExponent, BitVec.extractLsb_toNat,
    Nat.shiftRight_eq_div_pow]

/-- A small value is still small after its bits are taken apart again. -/
theorem unpack_pack_within (place : Int) {value : UnpackedFloat} (low : Within place value)
    (positive : 0 ≤ place) (small : place ≤ 900) :
    Within (place + 54) (Float.Model.pack value).unpack := by
  have field := unpackExponent_pack_le low small
  have within := unpack_within _ field (by omega)
  have same : ((place + 1074).toNat : Int) - 1020 = place + 54 := by omega
  rw [same] at within
  exact within

theorem isFinite_pack {value : UnpackedFloat} {place : Int} (low : Within place value)
    (small : place ≤ 900) : isFinite ⟨(Float.Model.pack value).toBits⟩ = true := by
  have field := unpackExponent_pack_le low small
  have apart : exponentField ⟨(Float.Model.pack value).toBits⟩ ≠ 2047 := by
    rw [exponentField_eq]
    have same : (Float.Model.pack value).toBits.toBitVec =
      UnpackedFloat.pack .binary64 value := rfl
    rw [same]
    omega
  simpa [isFinite] using apart

theorem ofNat_within (fits : count < 2 ^ 64) :
    Within 65 (UnpackedFloat.ofNat .binary64 count) := by
  unfold UnpackedFloat.ofNat UnpackedFloat.ofInt UnpackedFloat.normalize
  split
  · rename_i negative
    exact absurd (Int.compare_eq_lt.mp negative) (by omega)
  · exact .zero _
  · refine roundWithAccuracy_within 64 _ _ ?_ (by decide)
    have scaled (places : Nat) : (count <<< places).log2 < 64 + places := by
      refine log2_lt_of_lt ?_ (by omega)
      rw [Nat.shiftLeft_eq, Nat.pow_add]
      exact Nat.mul_lt_mul_of_pos_right fits (Nat.two_pow_pos places)
    simp only [totalExponent, Int.toNat_natCast]
    have leading := scaled (0 - Format.binary64.targetExponent (↑count.log2 + 1 + 0)).toNat
    omega

theorem ofScientific_within (fits : count < 2 ^ 64) :
    Within 66 (UnpackedFloat.ofScientific .binary64 count 0) := by
  unfold UnpackedFloat.ofScientific
  split
  · exact .zero _
  · rw [if_neg (by decide), if_neg (by change ¬(0 : Int) < -(2048 + _); omega), if_pos (by decide)]
    have shifted : count <<< Format.binary64.mantissaBits < 2 ^ 117 := by
      change count <<< 53 < _
      rw [Nat.shiftLeft_eq]
      omega
    refine mul_within 64 1 ?_ ?_ (by decide)
    · exact within_finite 117 _ shifted (by decide)
    · exact within_finite 1 _ (by decide) (by decide)

/-- Counts below `2 ^ 53` are converted and multiplied by one. -/
theorem isFinite_ofNat (fits : count < 2 ^ 64) : (ofNat count).isFinite = true := by
  unfold ofNat Float.ofNat
  change isFinite ⟨(Float.ofScientific count false 0).toBits⟩ = true
  unfold Float.ofScientific
  split
  · have converted : Within 119 (count.toUInt64.toFloat).toModel.unpack := by
      refine unpack_pack_within 65 ?_ (by decide) (by decide)
      have small : count.toUInt64.toNat = count := by
        simp only [Nat.toUInt64_eq, UInt64.toNat_ofNat']
        omega
      have rounded := ofNat_within fits
      rwa [← small] at rounded
    have one : Within 3 (Float.ofBits 0x3FF0000000000000).toModel.unpack :=
      unpack_within 1023 (by decide) (by decide)
    have product := mul_within 119 3 converted one (by decide)
    exact isFinite_pack product (by decide)
  · exact isFinite_pack (ofScientific_within fits) (by decide)

theorem exponentField_neg (value : Binary64) : value.neg.exponentField = value.exponentField := by
  simp only [exponentField, neg, fractionLimit, signBit, UInt64.toNat_xor]
  have widths : 0x10000000000000 = 2 ^ 52 ∧ 2048 = 2 ^ 11 := by decide
  rw [widths.1, widths.2, Nat.xor_div_two_pow, Nat.xor_mod_two_pow]
  simp

theorem isFinite_ofInt {value : Int} (fits : value.natAbs < 2 ^ 64) :
    (ofInt value).isFinite = true := by
  have magnitude := isFinite_ofNat fits
  unfold ofInt
  split
  · simpa only [isFinite, exponentField_neg] using magnitude
  · exact magnitude

end Binary64

end ScrapeRelay
