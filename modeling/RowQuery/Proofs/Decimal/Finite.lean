import RowQuery.Json.Number
import Mathlib

/-! # Integers as floats

The float nearest to an integer beyond the signed words is finite
(`RowQuery.Number.isFinite_toFloat`). The bounds are crude: rounding raises the exponent by no more
than the number of bits that it drops, and so stays far below the exponent of an infinity.
-/

namespace RowQuery

namespace Binary64

open Float.Model Float.Model.UnpackedFloat

/-! ### Packing -/

theorem isFinite_unpack {sign : Sign} {exponent : BitVec 11} {mantissa : BitVec 52}
    (below : exponent ≠ -1#11) :
    (UnpackedFloat.unpack Format.binary64
      (packComponents Format.binary64 sign exponent mantissa)).isFinite = true := by
  unfold UnpackedFloat.unpack
  rw [unpackExponent_packComponents, if_neg below]
  split
  · split <;> rfl
  · rfl

/-- Different exponents that fit their field are stored differently. -/
theorem exponentField_ne {biased other : Nat} (inField : biased < 2048) (inField' : other < 2048)
    (different : biased ≠ other) : BitVec.ofNat 11 biased ≠ BitVec.ofNat 11 other := by
  intro same
  have fields := congrArg BitVec.toNat same
  rw [BitVec.toNat_ofNat, BitVec.toNat_ofNat, Nat.mod_eq_of_lt inField,
    Nat.mod_eq_of_lt inField'] at fields
  exact different fields

/-- Whether a float is zero or has an exponent far below that of an infinity. -/
inductive Moderate : UnpackedFloat → Prop where
  | zero (sign : Sign) : Moderate (.zero sign)
  | finite {sign : Sign} {mantissa : Nat} {exponent : Int} {positive : 0 < mantissa}
      (small : exponent ≤ 900) : Moderate (.finite sign mantissa exponent positive)

theorem isFinite_pack {float : UnpackedFloat} (moderate : Moderate float) :
    (Float.ofModel (Float.Model.pack float)).isFinite = true := by
  change (UnpackedFloat.unpack Format.binary64
    (UnpackedFloat.pack Format.binary64 float)).isFinite = true
  cases moderate with
  | zero sign => exact isFinite_unpack (by decide)
  | @finite sign mantissa exponent positive small =>
      have bias : Format.binary64.exponentBias = 1023 := rfl
      rw [UnpackedFloat.pack]
      dsimp only
      rw [bias]
      generalize field : (exponent + (1023 : Nat) + (52 : Nat)).toNat = biased
      have inField : biased < 2047 := by omega
      have fullField : 2047 < 2048 := by decide
      rw [if_neg (Nat.not_le_of_lt (Nat.succ_lt_succ inField))]
      split
      · exact isFinite_unpack (exponentField_ne (Nat.lt_succ_of_lt inField) fullField
          (Nat.ne_of_lt inField))
      · exact isFinite_unpack (by decide)

/-! ### Rounding -/

theorem mantissa_shiftRight (extended : ExtendedMantissa) (places : Nat) :
    (extended >>> places).mantissa = extended.mantissa / 2 ^ places := by
  induction places with
  | zero => exact (Nat.div_one _).symm
  | succ places ih =>
      have halved : (extended >>> (places + 1)).mantissa = (extended >>> places).mantissa / 2 := rfl
      rw [halved, ih, Nat.div_div_eq_div_mul, Nat.pow_succ]

theorem roundedMantissa_le (extended : ExtendedMantissa) :
    extended.roundedMantissa ≤ extended.mantissa + 1 := by
  unfold ExtendedMantissa.roundedMantissa
  cases extended.accuracy with
  | exact => exact Nat.le_succ _
  | inexact half =>
      cases half with
      | lt => exact Nat.le_succ _
      | eq => exact Nat.add_le_add_left (Nat.le_of_lt_succ (Nat.mod_lt _ (by decide))) _
      | gt => exact Nat.le_refl _

theorem targetExponent_le {mantissa bits : Nat} (exponent : Int) (below : mantissa < 2 ^ bits) :
    Format.binary64.targetExponent (totalExponent mantissa exponent) ≤
      max (bits + exponent - 52) (-1074) := by
  have length : mantissa.log2 ≤ bits := by
    by_cases zero : mantissa = 0
    · rw [zero]
      exact Nat.zero_le bits
    · exact Nat.le_of_lt ((Nat.log2_lt zero).mpr below)
  have width : Format.binary64.mantissaBits = 53 := rfl
  have least : Format.binary64.minExponent = -1074 := by decide
  rw [Format.targetExponent, totalExponent, width, least]
  omega

theorem shiftToTargetExponent_bounds {mantissa bits : Nat} (exponent : Int) (accuracy : Accuracy)
    (below : mantissa < 2 ^ bits) :
    (shiftToTargetExponent Format.binary64 mantissa exponent accuracy).1.mantissa ≤ mantissa ∧
      (shiftToTargetExponent Format.binary64 mantissa exponent accuracy).2 ≤
        max exponent (max (bits + exponent - 52) (-1074)) := by
  constructor
  · have start :
        (ExtendedMantissa.ofMantissaAndAccuracy mantissa accuracy).mantissa = mantissa := by
      cases accuracy with
      | exact => rfl
      | inexact half => cases half <;> rfl
    dsimp only [shiftToTargetExponent, shiftToExponent]
    rw [mantissa_shiftRight, start]
    exact Nat.div_le_self _ _
  · have target := targetExponent_le exponent below
    dsimp only [shiftToTargetExponent, shiftToExponent]
    omega

theorem moderate_roundWithAccuracy {sign : Sign} {mantissa : Nat} {exponent : Int}
    {accuracy : Accuracy} (mantissa_lt : mantissa < 2 ^ 120) (exponent_le : exponent ≤ 0) :
    Moderate (roundWithAccuracy Format.binary64 sign mantissa exponent accuracy) := by
  -- Rounding up may take one more bit, so the mantissa is shifted a second time.
  have first := shiftToTargetExponent_bounds exponent accuracy mantissa_lt
  unfold roundWithAccuracy
  generalize shiftToTargetExponent Format.binary64 mantissa exponent accuracy = shifted at first
  obtain ⟨extended, raised⟩ := shifted
  dsimp only at first ⊢
  have rounded : extended.roundedMantissa < 2 ^ 121 := by
    have once := roundedMantissa_le extended
    have room : 2 ^ 120 + 1 < 2 ^ 121 := by decide
    omega
  have second := (shiftToTargetExponent_bounds raised .exact rounded).2
  split
  · exact .zero sign
  · apply Moderate.finite
    omega

/-! ### Integers -/

/-- A whole number is rounded after as many zeros as the format has places. -/
theorem ofScientific_eq_roundWithAccuracy {n : Nat} (positive : n ≠ 0) :
    UnpackedFloat.ofScientific Format.binary64 n 0 =
      roundWithAccuracy Format.binary64 .positive (n <<< 53) (-53) .exact := by
  have notLarge : ¬ (0 : Int) > 2 ^ Format.binary64.exponentBits := by decide
  have notSmall : ¬ (0 : Int) < -((2 ^ Format.binary64.exponentBits : Int) + n.log2) := by
    have power : (2 ^ Format.binary64.exponentBits : Int) = 2048 := by decide
    omega
  have width : Format.binary64.mantissaBits = 53 := rfl
  rw [UnpackedFloat.ofScientific, dif_neg positive, if_neg notLarge, if_neg notSmall,
    if_pos (Int.le_refl 0), UnpackedFloat.mul, width, Int.toNat_zero, Nat.pow_zero, Nat.mul_one,
    Int.add_zero]
  rfl

theorem moderate_ofScientific {n : Nat} (positive : n ≠ 0) (below : n < 2 ^ 64) :
    Moderate (UnpackedFloat.ofScientific Format.binary64 n 0) := by
  rw [ofScientific_eq_roundWithAccuracy positive]
  apply moderate_roundWithAccuracy
  · rw [Nat.shiftLeft_eq]
    omega
  · decide

theorem isFinite_ofNat {n : Nat} (large : 2 ^ 53 ≤ n) (below : n < 2 ^ 64) :
    (Float.ofNat n).isFinite = true := by
  have slow : ¬ (n < 2 ^ 53 ∧ 0 ≤ 22) := fun both => Nat.not_lt_of_le large both.1
  have positive : n ≠ 0 := by
    rintro rfl
    exact absurd large (by decide)
  have unfolded : Float.ofNat n = Float.ofScientific n false 0 := rfl
  rw [unfolded, Float.ofScientific, dif_neg slow]
  exact isFinite_pack (moderate_ofScientific positive below)

end Binary64

namespace Number

/-- The float of a number that is no signed word is finite. -/
theorem isFinite_toFloat {number : Number} (fractional : number.toInt64? = none) :
    number.toFloat.isFinite = true := by
  cases number with
  | decimal x finite => exact finite
  | integer n inRange =>
      have large : ¬ n < 9_223_372_036_854_775_808 := by
        intro small
        rw [toInt64?, if_pos small] at fractional
        cases fractional
      obtain ⟨magnitude, rfl⟩ := Int.eq_ofNat_of_zero_le (a := n) (by omega)
      have below := inRange.2
      apply Binary64.isFinite_ofNat <;> omega

end Number

end RowQuery
