import TreeWatch.Numeral
import TreeWatch.Proofs.Sign

/-!
Doubles that are numbers.

Every double has a sign, be it zero or infinite, but for what is not a number. Packing and rounding
keep the sign. A double that is not zero or less is therefore positive or not a number, and the text
of a numeral stands for what is not a number only if it says so. What is left of a positive double
is never positive when a double at least as great is taken away, unless both are infinite.
-/

namespace TreeWatch

open Float.Model Float.Model.UnpackedFloat

/-- Whether a float has a sign. Unlike `HasSign`, this is so of zero, too. -/
inductive Signed (sign : Sign) : UnpackedFloat → Prop where
  | infinity : Signed sign (.infinity sign)
  | zero : Signed sign (.zero sign)
  | finite {mantissa exponent positive} : Signed sign (.finite sign mantissa exponent positive)

namespace Signed

variable {sign : Sign} {float : UnpackedFloat}

theorem of_hasSign (hasSign : HasSign sign float) : Signed sign float := by
  cases hasSign with
  | infinity => exact .infinity
  | finite => exact .finite

theorem isNaN_eq_false (signed : Signed sign float) : float.isNaN = false := by
  cases signed <;> rfl

theorem unpack_bits {bits : BitVec Format.binary64.numBits}
    (isNumber : unpackExponent bits = -1#11 → unpackMantissa bits = 0#52) :
    Signed (Sign.ofBitVec (unpackSign bits)) (UnpackedFloat.unpack .binary64 bits) := by
  unfold UnpackedFloat.unpack
  by_cases top : unpackExponent bits = -1#11
  · rw [if_pos top, if_pos (isNumber top)]
    exact .infinity
  · rw [if_neg top]
    by_cases bottom : unpackExponent bits = 0#11
    · rw [if_pos bottom]
      by_cases empty : unpackMantissa bits = 0#52
      · rw [dif_pos empty]
        exact .zero
      · rw [dif_neg empty]
        exact .finite
    · rw [if_neg bottom]
      exact .finite

theorem unpack_packComponents (sign : Sign) {exponent : BitVec 11} {mantissa : BitVec 52}
    (isNumber : exponent = -1#11 → mantissa = 0#52) :
    Signed sign
      (UnpackedFloat.unpack .binary64 (packComponents .binary64 sign exponent mantissa)) := by
  have unpacked := @unpack_bits (packComponents .binary64 sign exponent mantissa)
  rw [unpackExponent_packComponents, unpackMantissa_packComponents, HasSign.sign_packComponents]
    at unpacked
  exact unpacked isNumber

theorem unpack_pack (signed : Signed sign float) :
    Signed sign (Float.Model.pack float).unpack := by
  change Signed sign (UnpackedFloat.unpack .binary64 (UnpackedFloat.pack .binary64 float))
  cases signed with
  | infinity => exact unpack_packComponents sign (fun _ => rfl)
  | zero => exact unpack_packComponents sign (fun _ => rfl)
  | @finite mantissa exponent positive =>
      unfold UnpackedFloat.pack
      dsimp only
      split
      · exact unpack_packComponents sign (fun _ => rfl)
      · rename_i inRange
        split
        · apply unpack_packComponents sign
          generalize (exponent + _ + _).toNat = biased at inRange ⊢
          have below : biased + 1 < 2 ^ 11 := not_le.mp inRange
          intro top
          have value : (BitVec.ofNat 11 biased).toNat = 2047 := by
            rw [top]
            decide
          rw [BitVec.toNat_ofNat, Nat.mod_eq_of_lt (by omega)] at value
          omega
        · exact unpack_packComponents sign (fun top => absurd top (by decide))

theorem neg (signed : Signed sign float) : Signed (-sign) float.neg := by
  cases signed with
  | infinity => exact .infinity
  | zero => exact .zero
  | finite => exact .finite

theorem roundWithAccuracy (sign : Sign) (mantissa : Nat) (exponent : Int) (accuracy : Accuracy) :
    Signed sign (roundWithAccuracy .binary64 sign mantissa exponent accuracy) := by
  unfold UnpackedFloat.roundWithAccuracy
  dsimp only
  generalize shiftToTargetExponent .binary64 _ _ .exact = rounded
  by_cases vanished : rounded.1.mantissa = 0
  · rw [dif_pos vanished]
    exact .zero
  · rw [dif_neg vanished]
    exact .finite

theorem mul_finite (signed : Signed .positive float) {mantissa : Nat} {exponent : Int}
    (positive : 0 < mantissa) :
    Signed .positive
      (UnpackedFloat.mul .binary64 float (.finite .positive mantissa exponent positive)) := by
  cases signed with
  | infinity => exact .infinity
  | zero => exact .zero
  | finite => exact roundWithAccuracy _ _ _ _

theorem div_finite (signed : Signed .positive float) {mantissa : Nat} {exponent : Int}
    (positive : 0 < mantissa) :
    Signed .positive
      (UnpackedFloat.div .binary64 float (.finite .positive mantissa exponent positive)) := by
  cases signed with
  | infinity => exact .infinity
  | zero => exact .zero
  | finite => exact roundWithAccuracy _ _ _ _

theorem ofNat (value : Nat) : Signed .positive (UnpackedFloat.ofNat .binary64 value) := by
  cases value with
  | zero => exact .zero
  | succ value => exact of_hasSign (.ofNat value.succ_pos)

theorem ofScientific (digits : Nat) (exponent : Int) :
    Signed .positive (UnpackedFloat.ofScientific .binary64 digits exponent) := by
  unfold UnpackedFloat.ofScientific
  by_cases none : digits = 0
  · rw [dif_pos none]
    exact .zero
  · rw [dif_neg none]
    apply iteInduction
    · intro _
      exact .infinity
    · intro _
      apply iteInduction
      · intro _
        exact .zero
      · intro _
        apply iteInduction
        · intro _
          exact mul_finite .finite _
        · intro _
          exact div_finite .finite _

end Signed

section Comparison

variable {float : Float}

theorem le_zero_of_signed (signed : Signed .negative float.toModel.unpack) : float ≤ 0 := by
  have compared : float.toModel.unpack.le (.zero .positive) = true := by
    generalize float.toModel.unpack = unpacked at signed
    cases signed <;> rfl
  exact decide_eq_true compared

/-- What is not known to be zero or less is positive if it is a number. -/
theorem not_le_zero_iff : ¬float ≤ 0 ↔ 0 < float ∨ float.isNaN = true := by
  have isAtMost : float ≤ 0 ↔ float.toModel.unpack.le (.zero .positive) = true :=
    decide_eq_true_iff
  have isAbove : 0 < float ↔ (UnpackedFloat.zero .positive).lt float.toModel.unpack = true :=
    decide_eq_true_iff
  have isNaN : float.isNaN = float.toModel.unpack.isNaN := rfl
  rw [isAtMost, isAbove, isNaN]
  cases float.toModel.unpack with
  | infinity sign => cases sign <;> decide
  | notANumber => decide
  | zero sign => cases sign <;> decide
  | finite sign mantissa exponent positive =>
      cases sign with
      | negative =>
          apply iff_of_false (not_not_intro rfl)
          rintro (never | never) <;> cases never
      | positive =>
          apply iff_of_true _ (.inl rfl)
          intro never
          cases never

theorem unpack_of_pos (positive : 0 < float) :
    float.toModel.unpack = .infinity .positive ∨
      ∃ mantissa exponent notZero,
        float.toModel.unpack = .finite .positive mantissa exponent notZero := by
  have compared : (UnpackedFloat.zero .positive).lt float.toModel.unpack = true :=
    of_decide_eq_true positive
  generalize float.toModel.unpack = unpacked at compared
  cases unpacked with
  | infinity sign =>
      cases sign with
      | negative => cases compared
      | positive => exact .inl rfl
  | notANumber => cases compared
  | zero sign => cases compared
  | finite sign mantissa exponent notZero =>
      cases sign with
      | negative => cases compared
      | positive => exact .inr ⟨mantissa, exponent, notZero, rfl⟩

theorem isNaN_eq_false_of_pos (positive : 0 < float) : float.isNaN = false := by
  rcases unpack_of_pos positive with infinite | ⟨mantissa, exponent, notZero, finite⟩
  · exact congrArg UnpackedFloat.isNaN infinite
  · exact congrArg UnpackedFloat.isNaN finite

theorem finite_of_pos (positive : 0 < float) (bounded : float.isInf = false) :
    ∃ mantissa exponent notZero,
      float.toModel.unpack = .finite .positive mantissa exponent notZero := by
  rcases unpack_of_pos positive with infinite | finite
  · have isInf : float.toModel.unpack.isInf = false := bounded
    rw [infinite] at isInf
    cases isInf
  · exact finite

end Comparison

section Difference

/-- Whether a float is as it is unpacked: its mantissa is long, unless its exponent is the least. -/
inductive Canonical : UnpackedFloat → Prop where
  | infinity (sign) : Canonical (.infinity sign)
  | notANumber : Canonical .notANumber
  | zero (sign) : Canonical (.zero sign)
  | finite {sign mantissa exponent positive} (small : mantissa < 2 ^ 53)
      (notTiny : -1074 ≤ exponent) (long : -1074 < exponent → 2 ^ 52 ≤ mantissa) :
      Canonical (.finite sign mantissa exponent positive)

theorem canonical_unpack (bits : BitVec Format.binary64.numBits) :
    Canonical (UnpackedFloat.unpack .binary64 bits) := by
  unfold UnpackedFloat.unpack
  by_cases top : unpackExponent bits = -1#11
  · rw [if_pos top]
    split
    · exact .infinity _
    · exact .notANumber
  · rw [if_neg top]
    by_cases bottom : unpackExponent bits = 0#11
    · rw [if_pos bottom]
      by_cases empty : unpackMantissa bits = 0#52
      · rw [dif_pos empty]
        exact .zero _
      · rw [dif_neg empty]
        have least : ((unpackExponent bits).toNat : Int) - 1075 + 1 = -1074 := by
          rw [bottom]
          decide
        apply Canonical.finite ((unpackMantissa bits).isLt.trans (by decide)) least.ge
        intro large
        exact absurd least large.ne'
    · rw [if_neg bottom]
      have notZero : (unpackExponent bits).toNat ≠ 0 := by
        intro zero
        exact bottom (BitVec.eq_of_toNat_eq zero)
      apply Canonical.finite (1#1 ++ unpackMantissa bits).isLt
      · change -1074 ≤ ((unpackExponent bits).toNat : Int) - 1075
        omega
      · intro _
        rw [BitVec.toNat_append]
        exact Nat.left_le_or

/-- Canonical floats are compared by their exponents first. -/
theorem aligned_le {mantissa other : Nat} {exponent reached : Int} (small : mantissa < 2 ^ 53)
    (long : exponent < reached → 2 ^ 52 ≤ other)
    (atMost : exponent < reached ∨ exponent = reached ∧ mantissa ≤ other) :
    mantissa <<< (exponent - min exponent reached).toNat ≤
      other <<< (reached - min exponent reached).toNat := by
  rcases atMost with less | ⟨rfl, atMost⟩
  · rw [min_eq_left less.le, sub_self, Int.toNat_zero, Nat.shiftLeft_zero, Nat.shiftLeft_eq]
    -- The greater exponent is not the least one: its mantissa is long, and counts at least twice.
    have twice : 2 ^ 1 ≤ 2 ^ (reached - exponent).toNat :=
      Nat.pow_le_pow_right Nat.two_pos (by omega)
    calc
      mantissa ≤ 2 ^ 52 * 2 ^ 1 := small.le
      _ ≤ other * 2 ^ (reached - exponent).toNat := Nat.mul_le_mul (long less) twice
  · rwa [min_self, sub_self, Int.toNat_zero, Nat.shiftLeft_zero, Nat.shiftLeft_zero]

theorem le_finite_iff {mantissa other : Nat} {exponent reached : Int} {positive : 0 < mantissa}
    {otherPositive : 0 < other} :
    (UnpackedFloat.finite .positive mantissa exponent positive).le
        (.finite .positive other reached otherPositive) = true ↔
      exponent < reached ∨ exponent = reached ∧ mantissa ≤ other := by
  change ((compare exponent reached).then (compare mantissa other)).isLE = true ↔ _
  rw [Ordering.isLE_then_iff_or, compare_lt_iff_lt, compare_eq_iff_eq, Nat.isLE_compare]

/-- What is packed is zero or less if the mantissa that is rounded is. -/
theorem pack_normalize_le_zero {mantissa : Int} (notPositive : mantissa ≤ 0) (exponent : Int) :
    Float.ofModel
      (Float.Model.pack (UnpackedFloat.normalize .binary64 mantissa exponent .positive)) ≤ 0 := by
  unfold UnpackedFloat.normalize
  cases compared : compare mantissa 0 with
  | lt => exact le_zero_of_signed (Signed.roundWithAccuracy _ _ _ _).unpack_pack
  | eq =>
      change Float.ofModel (Float.Model.pack (.zero .positive)) ≤ 0
      decide
  | gt => exact absurd notPositive (not_le.mpr (compare_gt_iff_gt.mp compared))

theorem pack_sub_le_zero {mantissa : Nat} {exponent : Int} {notZero : 0 < mantissa}
    {other : UnpackedFloat}
    (canonical : Canonical (.finite .positive mantissa exponent notZero))
    (otherCanonical : Canonical other)
    (atMost : (UnpackedFloat.finite .positive mantissa exponent notZero).le other = true) :
    Float.ofModel (Float.Model.pack (UnpackedFloat.sub .binary64
      (.finite .positive mantissa exponent notZero) other)) ≤ 0 := by
  cases canonical with
  | finite small notTiny long =>
      cases otherCanonical with
      | infinity sign =>
          cases sign with
          | negative => cases atMost
          | positive => exact le_zero_of_signed Signed.infinity.unpack_pack
      | notANumber => cases atMost
      | zero sign => cases atMost
      | @finite sign otherMantissa reached otherNotZero otherSmall otherNotTiny otherLong =>
          cases sign with
          | negative => cases atMost
          | positive =>
              apply pack_normalize_le_zero
              have aligned := aligned_le small (fun less => otherLong (notTiny.trans_lt less))
                (le_finite_iff.mp atMost)
              exact sub_nonpos.mpr (Int.ofNat_le.mpr aligned)

/-- Nothing is left of a positive double when one at least as great is taken away. -/
theorem sub_le_zero {float other : Float} (positive : 0 < float) (atMost : float ≤ other)
    (bounded : float.isInf = false ∨ other.isInf = false) : float - other ≤ 0 := by
  have canonical : Canonical float.toModel.unpack := canonical_unpack _
  have otherCanonical : Canonical other.toModel.unpack := canonical_unpack _
  have compared : float.toModel.unpack.le other.toModel.unpack = true := of_decide_eq_true atMost
  change float.toModel.unpack.isInf = false ∨ other.toModel.unpack.isInf = false at bounded
  rcases unpack_of_pos positive with infinite | ⟨mantissa, exponent, notZero, finite⟩
  · rw [infinite] at compared bounded
    generalize other.toModel.unpack = unpacked at compared bounded
    cases unpacked with
    | infinity sign => rcases bounded with never | never <;> cases never
    | notANumber => cases compared
    | zero sign => cases compared
    | finite sign mantissa exponent notZero => cases compared
  · change Float.ofModel (Float.Model.pack
      (UnpackedFloat.sub .binary64 float.toModel.unpack other.toModel.unpack)) ≤ 0
    rw [finite] at canonical compared ⊢
    exact pack_sub_le_zero canonical otherCanonical compared

theorem not_sub_le_zero_of_isNaN {float other : Float} (isNaN : float.isNaN = true) :
    ¬float - other ≤ 0 := by
  change float.toModel.unpack.isNaN = true at isNaN
  change ¬Float.ofModel (Float.Model.pack
    (UnpackedFloat.sub .binary64 float.toModel.unpack other.toModel.unpack)) ≤ 0
  generalize float.toModel.unpack = unpacked at isNaN
  cases unpacked with
  | infinity sign => cases isNaN
  | notANumber =>
      change ¬Float.ofModel (Float.Model.pack .notANumber) ≤ 0
      decide
  | zero sign => cases isNaN
  | finite sign mantissa exponent positive => cases isNaN

end Difference

section Product

variable {value power : Float} (signed : Signed .positive value.toModel.unpack)
  (positive : 0 < power) (bounded : power.isInf = false)

include signed positive bounded

theorem signed_mul : Signed .positive (value * power).toModel.unpack := by
  obtain ⟨mantissa, exponent, notZero, finite⟩ := finite_of_pos positive bounded
  change Signed .positive (Float.Model.pack
    (UnpackedFloat.mul .binary64 value.toModel.unpack power.toModel.unpack)).unpack
  rw [finite]
  exact (signed.mul_finite notZero).unpack_pack

theorem signed_div : Signed .positive (value / power).toModel.unpack := by
  obtain ⟨mantissa, exponent, notZero, finite⟩ := finite_of_pos positive bounded
  change Signed .positive (Float.Model.pack
    (UnpackedFloat.div .binary64 value.toModel.unpack power.toModel.unpack)).unpack
  rw [finite]
  exact (signed.div_finite notZero).unpack_pack

end Product

theorem powers_finite : ∀ exponent : Fin 23,
    0 < Float.exactlyRepresentablePowersOfTen[exponent] ∧
      Float.exactlyRepresentablePowersOfTen[exponent].isInf = false := by
  decide +kernel

theorem signed_ofScientific (digits : Nat) (negative : Bool) (exponent : Nat) :
    Signed .positive (Float.ofScientific digits negative exponent).toModel.unpack := by
  unfold Float.ofScientific
  split
  · rename_i short
    have converted : Signed .positive digits.toUInt64.toFloat.toModel.unpack :=
      (Signed.ofNat digits.toUInt64.toNat).unpack_pack
    obtain ⟨positive, bounded⟩ := powers_finite ⟨exponent, Nat.lt_succ_of_le short.2⟩
    dsimp only
    split
    · exact signed_div converted positive bounded
    · exact signed_mul converted positive bounded
  · exact (Signed.ofScientific digits _).unpack_pack

theorem signed_ofInt (value : Int) : ∃ sign, Signed sign (Float.ofInt value).toModel.unpack := by
  cases value with
  | ofNat value => exact ⟨_, signed_ofScientific value false 0⟩
  | negSucc value => exact ⟨_, (signed_ofScientific (value + 1) false 0).neg.unpack_pack⟩

namespace Numeral

theorem signed_magnitude (digits : Nat) (exponent : Int) :
    Signed .positive (magnitude digits exponent).toModel.unpack := by
  unfold magnitude
  dsimp only
  split
  · exact Signed.zero
  · split
    · exact Signed.infinity
    · exact signed_ofScientific _ _ _

theorem isNaN_toFloat_iff {numeral : Numeral} :
    numeral.toFloat.isNaN = true ↔ numeral = .notANumber := by
  cases numeral with
  | decimal negative digits exponent =>
      refine iff_of_false (ne_true_of_eq_false ?_) (by simp)
      cases negative with
      | false => exact (signed_magnitude digits exponent).isNaN_eq_false
      | true => exact (signed_magnitude digits exponent).neg.unpack_pack.isNaN_eq_false
  | infinity negative =>
      refine iff_of_false (ne_true_of_eq_false ?_) (by simp)
      cases negative <;> decide
  | notANumber => exact iff_of_true (by decide) rfl

end Numeral

end TreeWatch
