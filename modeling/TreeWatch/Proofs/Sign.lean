import Mathlib.Algebra.Order.Group.Int
import Mathlib.Tactic.NormNum
import TreeWatch.Number

/-!
The sign of the double that is nearest to an integer.

A double is packed into bits after each operation and unpacked before the next one. As long as a
float is not too small for its exponent, neither packing nor rounding takes its sign away or turns
it into zero or into what is not a number; it may become infinite. An integer other than zero never
comes near the least exponent, so its nearest double is on the same side of zero.
-/

namespace TreeWatch

open Float.Model Float.Model.UnpackedFloat

/-- Whether a float has a sign, is not zero, and is within the range that packing keeps. -/
inductive HasSign (sign : Sign) : UnpackedFloat → Prop where
  | infinity : HasSign sign (.infinity sign)
  | finite {mantissa exponent positive} (small : mantissa < 2 ^ 53) (notTiny : -1074 ≤ exponent) :
      HasSign sign (.finite sign mantissa exponent positive)

namespace HasSign

variable {sign : Sign} {float : UnpackedFloat}

theorem ofBitVec_toBitVec (sign : Sign) : Sign.ofBitVec sign.toBitVec = sign := by
  cases sign <;> rfl

theorem unpackSign_packComponents (sign : Sign) (exponent : BitVec 11) (mantissa : BitVec 52) :
    unpackSign (packComponents .binary64 sign exponent mantissa) = sign.toBitVec := by
  change (sign.toBitVec ++ exponent ++ mantissa).extractLsb' 63 1 = _
  rw [BitVec.extractLsb'_append_eq_of_le (by decide),
    BitVec.extractLsb'_append_eq_of_le (by decide)]
  cases sign <;> rfl

theorem sign_packComponents (sign : Sign) (exponent : BitVec 11) (mantissa : BitVec 52) :
    Sign.ofBitVec (unpackSign (packComponents .binary64 sign exponent mantissa)) = sign := by
  rw [unpackSign_packComponents, ofBitVec_toBitVec]

theorem unpack_bits {bits : BitVec Format.binary64.numBits}
    (isNumber : unpackExponent bits = -1#11 → unpackMantissa bits = 0#52)
    (notZero : unpackExponent bits = 0#11 → unpackMantissa bits ≠ 0#52) :
    HasSign (Sign.ofBitVec (unpackSign bits)) (UnpackedFloat.unpack .binary64 bits) := by
  unfold UnpackedFloat.unpack
  by_cases top : unpackExponent bits = -1#11
  · rw [if_pos top, if_pos (isNumber top)]
    exact .infinity
  · rw [if_neg top]
    by_cases bottom : unpackExponent bits = 0#11
    · rw [if_pos bottom, dif_neg (notZero bottom)]
      apply finite ((unpackMantissa bits).isLt.trans (by decide))
      rw [bottom]
      decide
    · rw [if_neg bottom]
      apply finite (1#1 ++ unpackMantissa bits).isLt
      have positive : (unpackExponent bits).toNat ≠ 0 := by
        intro zero
        exact bottom (BitVec.eq_of_toNat_eq zero)
      change -1074 ≤ ((unpackExponent bits).toNat : Int) - 1075
      omega

theorem unpack_packComponents (sign : Sign) {exponent : BitVec 11} {mantissa : BitVec 52}
    (isNumber : exponent = -1#11 → mantissa = 0#52) (notZero : exponent = 0#11 → mantissa ≠ 0#52) :
    HasSign sign
      (UnpackedFloat.unpack .binary64 (packComponents .binary64 sign exponent mantissa)) := by
  have unpacked := @unpack_bits (packComponents .binary64 sign exponent mantissa)
  rw [unpackExponent_packComponents, unpackMantissa_packComponents, sign_packComponents] at unpacked
  exact unpacked isNumber notZero

theorem unpack_pack (hasSign : HasSign sign float) :
    HasSign sign (Float.Model.pack float).unpack := by
  change HasSign sign (UnpackedFloat.unpack .binary64 (UnpackedFloat.pack .binary64 float))
  cases hasSign with
  | infinity => exact unpack_packComponents sign (fun _ => rfl) (fun top => absurd top (by decide))
  | @finite mantissa exponent positive small notTiny =>
      unfold UnpackedFloat.pack
      dsimp only
      split
      · exact unpack_packComponents sign (fun _ => rfl) (fun top => absurd top (by decide))
      · rename_i inRange
        have biased : (exponent + Format.binary64.exponentBias +
            Format.binary64.mantissaBitsWithoutImplicit).toNat = (exponent + 1075).toNat := by
          change (exponent + 1023 + 52).toNat = _
          congr 1
          omega
        rw [biased] at inRange ⊢
        have below : (exponent + 1075).toNat + 1 < 2 ^ 11 := not_le.mp inRange
        split
        · -- The exponent is neither the least nor the greatest one.
          have exact : (BitVec.ofNat 11 (exponent + 1075).toNat).toNat = (exponent + 1075).toNat :=
            Nat.mod_eq_of_lt (by omega)
          apply unpack_packComponents sign
          · intro top
            have value : (BitVec.ofNat 11 (exponent + 1075).toNat).toNat = 2047 := by
              rw [top]
              decide
            omega
          · intro bottom
            have value : (BitVec.ofNat 11 (exponent + 1075).toNat).toNat = 0 := by
              rw [bottom]
              decide
            omega
        · rename_i short
          have shorter : mantissa < 2 ^ 52 := by
            apply (Nat.log2_lt positive.ne').mp
            have bound := (Nat.log2_lt positive.ne').mpr small
            change mantissa.log2 + 1 ≠ 53 at short
            omega
          apply unpack_packComponents sign (fun top => absurd top (by decide))
          intro _ zero
          have value : (BitVec.ofNat 52 mantissa).toNat = 0 := by
            rw [zero]
            decide
          rw [BitVec.toNat_ofNat, Nat.mod_eq_of_lt shorter] at value
          exact positive.ne' value

theorem neg (hasSign : HasSign sign float) : HasSign (-sign) float.neg := by
  cases hasSign with
  | infinity => exact .infinity
  | finite small notTiny => exact .finite small notTiny

theorem mantissa_shiftRight (extended : ExtendedMantissa) (count : Nat) :
    (extended >>> count).mantissa = extended.mantissa / 2 ^ count := by
  induction count with
  | zero => exact (Nat.div_one _).symm
  | succ count inductionHypothesis =>
      change (extended >>> count).mantissa / 2 = _
      rw [inductionHypothesis, Nat.div_div_eq_div_mul, Nat.pow_succ]

theorem le_roundedMantissa (extended : ExtendedMantissa) :
    extended.mantissa ≤ extended.roundedMantissa := by
  obtain ⟨mantissa, roundBit, stickyBit⟩ := extended
  cases roundBit <;> cases stickyBit <;>
    simp [ExtendedMantissa.roundedMantissa, ExtendedMantissa.accuracy,
      Accuracy.roundToNearestEven]

/-- What is left of a mantissa that is moved to the exponent at which it is to be rounded. -/
theorem shiftToTargetExponent_bounds {mantissa : Nat} {exponent : Int} (accuracy : Accuracy)
    (positive : 0 < mantissa) (notTiny : -1074 ≤ mantissa.log2 + exponent) :
    let shifted := shiftToTargetExponent .binary64 mantissa exponent accuracy
    0 < shifted.1.mantissa ∧ shifted.1.mantissa < 2 ^ 53 ∧ -1074 ≤ shifted.2 := by
  let count := (Format.binary64.targetExponent (totalExponent mantissa exponent) - exponent).toNat
  have target : Format.binary64.targetExponent (totalExponent mantissa exponent) =
      max (mantissa.log2 + 1 + exponent - 53) (-1074) := rfl
  have left : (shiftToTargetExponent .binary64 mantissa exponent accuracy).1.mantissa =
      mantissa / 2 ^ count := by
    change (ExtendedMantissa.ofMantissaAndAccuracy mantissa accuracy >>> count).mantissa = _
    rw [mantissa_shiftRight]
    cases accuracy with
    | exact => rfl
    | inexact fraction => cases fraction <;> rfl
  have moved : (shiftToTargetExponent .binary64 mantissa exponent accuracy).2 =
      exponent + count := rfl
  have many : mantissa.log2 + 1 ≤ 53 + count := by omega
  have few : count ≤ mantissa.log2 := by omega
  dsimp only
  rw [left, moved]
  refine ⟨?_, ?_, by omega⟩
  · apply Nat.div_pos _ (Nat.two_pow_pos count)
    exact (Nat.pow_le_pow_right Nat.two_pos few).trans (Nat.log2_self_le positive.ne')
  · rw [Nat.div_lt_iff_lt_mul (Nat.two_pow_pos count), ← Nat.pow_add]
    exact Nat.lt_log2_self.trans_le (Nat.pow_le_pow_right Nat.two_pos many)

theorem roundWithAccuracy {mantissa : Nat} {exponent : Int} (sign : Sign) (accuracy : Accuracy)
    (positive : 0 < mantissa) (notTiny : -1074 ≤ mantissa.log2 + exponent) :
    HasSign sign (roundWithAccuracy .binary64 sign mantissa exponent accuracy) := by
  let first := shiftToTargetExponent .binary64 mantissa exponent accuracy
  have bounds : 0 < first.1.mantissa ∧ first.1.mantissa < 2 ^ 53 ∧ -1074 ≤ first.2 :=
    shiftToTargetExponent_bounds accuracy positive notTiny
  obtain ⟨firstPositive, _, firstExponent⟩ := bounds
  have rounded : 0 < first.1.roundedMantissa :=
    firstPositive.trans_le (le_roundedMantissa first.1)
  have notTinier : -1074 ≤ first.1.roundedMantissa.log2 + first.2 := by omega
  obtain ⟨lastPositive, lastSmall, lastExponent⟩ :=
    shiftToTargetExponent_bounds .exact rounded notTinier
  unfold UnpackedFloat.roundWithAccuracy
  dsimp only
  rw [dif_neg lastPositive.ne']
  exact .finite lastSmall lastExponent

theorem le_log2_shiftLeft {value : Nat} (positive : 0 < value) (count : Nat) :
    count ≤ (value <<< count).log2 := by
  have large : 2 ^ count ≤ value <<< count := by
    rw [Nat.shiftLeft_eq]
    exact Nat.le_mul_of_pos_left _ positive
  exact (Nat.le_log2 (Nat.two_pow_pos count |>.trans_le large).ne').mpr large

theorem ofNat {value : Nat} (positive : 0 < value) :
    HasSign .positive (UnpackedFloat.ofNat .binary64 value) := by
  have compared : compare (value : Int) 0 = .gt := compare_gt_iff_gt.mpr (by omega)
  unfold UnpackedFloat.ofNat UnpackedFloat.ofInt UnpackedFloat.normalize
  rw [compared]
  dsimp only
  unfold UnpackedFloat.round decreaseExponent
  dsimp only
  rw [Int.toNat_natCast]
  generalize (0 - Format.binary64.targetExponent (totalExponent value 0)).toNat = count
  have large := le_log2_shiftLeft positive count
  apply roundWithAccuracy
  · rw [Nat.shiftLeft_eq]
    exact Nat.mul_pos positive (Nat.two_pow_pos count)
  · omega

theorem mul_finite {first second : Nat} {exponent other : Int} (firstPositive : 0 < first)
    (secondPositive : 0 < second) (notTiny : -1074 ≤ (first * second).log2 + (exponent + other)) :
    HasSign .positive (UnpackedFloat.mul .binary64
      (.finite .positive first exponent firstPositive)
      (.finite .positive second other secondPositive)) := by
  change HasSign .positive (UnpackedFloat.roundWithAccuracy .binary64 .positive (first * second)
    (exponent + other) .exact)
  exact roundWithAccuracy .positive .exact (Nat.mul_pos firstPositive secondPositive) notTiny

theorem mul_one (hasSign : HasSign .positive float) :
    HasSign .positive
      (UnpackedFloat.mul .binary64 float (.finite .positive (2 ^ 52) (-52) (by decide))) := by
  cases hasSign with
  | infinity => exact .infinity
  | @finite mantissa exponent positive small notTiny =>
      apply mul_finite
      have shifted := le_log2_shiftLeft positive 52
      rw [Nat.shiftLeft_eq] at shifted
      omega

theorem ofScientific {value : Nat} (positive : 0 < value) :
    HasSign .positive (UnpackedFloat.ofScientific .binary64 value 0) := by
  have exponentBits : Format.binary64.exponentBits = 11 := rfl
  have mantissaBits : Format.binary64.mantissaBits = 53 := rfl
  have large := le_log2_shiftLeft positive 53
  unfold UnpackedFloat.ofScientific
  rw [dif_neg positive.ne', exponentBits, if_neg (by norm_num), if_neg (by omega), if_pos le_rfl]
  apply mul_finite
  rw [Int.toNat_zero, Nat.pow_zero, Nat.mul_one, mantissaBits]
  omega

end HasSign

theorem hasSign_ofNat {value : Nat} (positive : 0 < value) :
    HasSign .positive (Float.ofNat value).toModel.unpack := by
  change HasSign .positive (Float.ofScientific value false 0).toModel.unpack
  unfold Float.ofScientific
  split
  · rename_i small
    have same : value.toUInt64.toNat = value := Nat.mod_eq_of_lt (by omega)
    have converted : HasSign .positive (Float.Model.ofUInt64 value.toUInt64).unpack := by
      apply HasSign.unpack_pack
      change HasSign .positive (UnpackedFloat.ofNat .binary64 value.toUInt64.toNat)
      rw [same]
      exact .ofNat positive
    have present : 0 < Float.exactlyRepresentablePowersOfTen.size := by decide
    have first : Float.exactlyRepresentablePowersOfTen[0] = .ofBits 0x3FF0000000000000 := by rfl
    have one : Float.exactlyRepresentablePowersOfTen[0].toModel.unpack =
        .finite .positive (2 ^ 52) (-52) (by decide) := by
      rw [first]
      rfl
    have product := converted.mul_one.unpack_pack
    rw [← one] at product
    exact product
  · exact (HasSign.ofScientific positive).unpack_pack

section Comparison

variable {float : Float}

theorem not_le_zero_of_hasSign (hasSign : HasSign .positive float.toModel.unpack) :
    ¬float ≤ 0 := by
  intro notPositive
  have compared : float.toModel.unpack.le (.zero .positive) = true :=
    of_decide_eq_true notPositive
  generalize float.toModel.unpack = unpacked at hasSign compared
  cases hasSign <;> cases compared

theorem le_zero_of_hasSign (hasSign : HasSign .negative float.toModel.unpack) : float ≤ 0 := by
  have compared : float.toModel.unpack.le (.zero .positive) = true := by
    generalize float.toModel.unpack = unpacked at hasSign
    cases hasSign <;> rfl
  exact decide_eq_true compared

theorem ofInt_le_zero_iff (value : Int) : Float.ofInt value ≤ 0 ↔ value ≤ 0 := by
  cases value with
  | ofNat value =>
      cases value with
      | zero => exact iff_of_true (by decide) le_rfl
      | succ value =>
          apply iff_of_false
          · exact not_le_zero_of_hasSign (hasSign_ofNat value.succ_pos)
          · exact not_le.mpr (Int.natCast_pos.mpr value.succ_pos)
  | negSucc value =>
      apply iff_of_true
      · exact le_zero_of_hasSign (hasSign_ofNat value.succ_pos).neg.unpack_pack
      · exact (Int.negSucc_lt_zero value).le

end Comparison

namespace Number

/-- A number that has a nearest double may be compared with zero before or after the conversion. -/
theorem le_zero_iff_of_toFloat? {number : Number} {float : Float}
    (converted : number.toFloat? = some float) : float ≤ 0 ↔ number.isNonPositive = true := by
  cases number with
  | double value =>
      cases converted
      exact decide_eq_true_iff.symm
  | integer value =>
      unfold toFloat? at converted
      dsimp only at converted
      split at converted
      · cases converted
      · cases converted
        rw [ofInt_le_zero_iff]
        exact decide_eq_true_iff.symm

end Number

end TreeWatch
