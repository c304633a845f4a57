import RowQuery.Proofs.Decimal.Finite

/-! # Rounding to a float

A number is rounded in two steps: its mantissa is shifted to full length, with a round bit and a
sticky bit for what is dropped, and then rounded to the nearest even mantissa. Both steps keep the
order of mantissas (`RowQuery.Binary64.rank_shiftRight_mono`,
`RowQuery.Binary64.roundedMantissa_mono`). A number that gets a mantissa of full length is not
shifted again (`RowQuery.Binary64.roundWithAccuracy_of_lt`), unless rounding up carries it to the
next power of two (`RowQuery.Binary64.roundWithAccuracy_of_carry`).
-/

namespace RowQuery

namespace Binary64

open Float.Model Float.Model.UnpackedFloat

/-! ### Mantissas with their rounding bits -/

/-- The rank of a mantissa among all mantissas with a round bit and a sticky bit behind them. -/
def rank (extended : ExtendedMantissa) : Nat :=
  4 * extended.mantissa + 2 * extended.roundBit.toNat + extended.stickyBit.toNat

theorem rank_shiftRightOne_mono {first second : ExtendedMantissa}
    (le : rank first ≤ rank second) : rank first.shiftRightOne ≤ rank second.shiftRightOne := by
  have halved (extended : ExtendedMantissa) : rank extended.shiftRightOne =
      2 * extended.mantissa + (extended.roundBit || extended.stickyBit).toNat := by
    have parity : (extended.mantissa % 2 != 0).toNat = extended.mantissa % 2 := by
      rcases Nat.mod_two_eq_zero_or_one extended.mantissa with even | odd
      · rw [even]; rfl
      · rw [odd]; rfl
    simp only [rank, ExtendedMantissa.shiftRightOne, parity]
    omega
  obtain ⟨m, roundBit, stickyBit⟩ := first
  obtain ⟨n, roundBit', stickyBit'⟩ := second
  rw [halved, halved]
  simp only [rank] at le ⊢
  cases roundBit <;> cases stickyBit <;> cases roundBit' <;> cases stickyBit' <;>
    simp only [Bool.toNat_true, Bool.toNat_false, Bool.or_true, Bool.or_false] at le ⊢ <;> omega

theorem rank_shiftRight_mono {first second : ExtendedMantissa} (le : rank first ≤ rank second)
    (places : Nat) : rank (first >>> places) ≤ rank (second >>> places) := by
  induction places with
  | zero => exact le
  | succ places ih => exact rank_shiftRightOne_mono ih

theorem roundedMantissa_mono {first second : ExtendedMantissa} (le : rank first ≤ rank second) :
    first.roundedMantissa ≤ second.roundedMantissa := by
  obtain ⟨m, roundBit, stickyBit⟩ := first
  obtain ⟨n, roundBit', stickyBit'⟩ := second
  simp only [rank] at le
  cases roundBit <;> cases stickyBit <;> cases roundBit' <;> cases stickyBit' <;>
    simp only [Bool.toNat_true, Bool.toNat_false, ExtendedMantissa.roundedMantissa,
      ExtendedMantissa.accuracy, Accuracy.roundToNearestEven] at le ⊢ <;> omega

theorem le_roundedMantissa (extended : ExtendedMantissa) :
    extended.mantissa ≤ extended.roundedMantissa := by
  unfold ExtendedMantissa.roundedMantissa
  cases extended.accuracy with
  | exact => exact Nat.le_refl _
  | inexact half => cases half <;> simp only [Accuracy.roundToNearestEven] <;> omega

/-- A mantissa with no bits behind it. -/
def exactly (mantissa : Nat) : ExtendedMantissa :=
  ExtendedMantissa.ofMantissaAndAccuracy mantissa .exact

theorem rank_exactly (mantissa : Nat) : rank (exactly mantissa) = 4 * mantissa := rfl

theorem roundedMantissa_exactly (mantissa : Nat) :
    (exactly mantissa).roundedMantissa = mantissa := rfl

/-- Zeros that are dropped leave no trace. -/
theorem exactly_mul_shiftRight (mantissa places : Nat) :
    exactly (mantissa * 2 ^ places) >>> places = exactly mantissa := by
  induction places generalizing mantissa with
  | zero => rw [Nat.pow_zero, Nat.mul_one]; rfl
  | succ places ih =>
      have moved : mantissa * 2 ^ (places + 1) = (2 * mantissa) * 2 ^ places := by
        rw [Nat.pow_succ']; ring
      have step : exactly (mantissa * 2 ^ (places + 1)) >>> (places + 1) =
          (exactly ((2 * mantissa) * 2 ^ places) >>> places).shiftRightOne := by
        rw [moved]; rfl
      rw [step, ih]
      simp [exactly, ExtendedMantissa.ofMantissaAndAccuracy, ExtendedMantissa.shiftRightOne]

/-! ### Rounding to the format -/

theorem log2_of_normal {mantissa : Nat} (normal : 2 ^ 52 ≤ mantissa ∧ mantissa < 2 ^ 53) :
    mantissa.log2 = 52 := by
  rw [Nat.log2_eq_iff (by omega)]
  exact normal

/-- A mantissa that is too long is shifted until its leading bit is in the first place. -/
theorem shiftToTargetExponent_eq {mantissa places : Nat} {exponent : Int}
    (length : mantissa.log2 = 52 + places) (least : -1074 ≤ exponent + places) :
    shiftToTargetExponent Format.binary64 mantissa exponent .exact =
      (exactly mantissa >>> places, exponent + places) := by
  have width : Format.binary64.mantissaBits = 53 := rfl
  have floor : Format.binary64.minExponent = -1074 := by decide
  have shift : (Format.binary64.targetExponent (totalExponent mantissa exponent) - exponent).toNat =
      places := by
    rw [Format.targetExponent, totalExponent, width, floor, length]
    omega
  simp only [shiftToTargetExponent, shiftToExponent, shift]
  rfl

/-- Rounding gives a mantissa of full length, or the next power of two. -/
theorem roundedMantissa_bounds {mantissa places : Nat} (length : mantissa.log2 = 52 + places) :
    2 ^ 52 ≤ (exactly mantissa >>> places).roundedMantissa ∧
      (exactly mantissa >>> places).roundedMantissa ≤ 2 ^ 53 := by
  have nonzero : mantissa ≠ 0 := by
    rintro rfl
    rw [Nat.log2_zero] at length
    omega
  have start : (exactly mantissa >>> places).mantissa = mantissa / 2 ^ places :=
    mantissa_shiftRight _ _
  constructor
  · have least : 2 ^ 52 ≤ mantissa / 2 ^ places := by
      rw [Nat.le_div_iff_mul_le (Nat.two_pow_pos _), ← Nat.pow_add, ← length]
      exact Nat.log2_self_le nonzero
    rw [← start] at least
    exact Nat.le_trans least (le_roundedMantissa _)
  · have most : mantissa / 2 ^ places < 2 ^ 53 := by
      rw [Nat.div_lt_iff_lt_mul (Nat.two_pow_pos _), ← Nat.pow_add]
      refine Nat.lt_of_lt_of_le Nat.lt_log2_self ?_
      exact Nat.pow_le_pow_right (by decide) (by omega)
    rw [← start] at most
    exact Nat.le_trans (roundedMantissa_le _) most

/-- What is rounded to a mantissa of full length is shifted once. -/
theorem roundWithAccuracy_of_lt {sign : Sign} {mantissa places rounded : Nat} {exponent : Int}
    (length : mantissa.log2 = 52 + places) (least : -1074 ≤ exponent + places)
    (same : (exactly mantissa >>> places).roundedMantissa = rounded)
    (normal : 2 ^ 52 ≤ rounded ∧ rounded < 2 ^ 53) (positive : 0 < rounded) :
    roundWithAccuracy Format.binary64 sign mantissa exponent .exact =
      .finite sign rounded (exponent + places) positive := by
  have again : rounded.log2 = 52 + 0 := log2_of_normal normal
  have unmoved : exponent + places + (0 : Nat) = exponent + places := Int.add_zero _
  unfold roundWithAccuracy
  rw [shiftToTargetExponent_eq length least]
  dsimp only
  rw [same, shiftToTargetExponent_eq again (by omega), unmoved]
  exact dif_neg positive.ne'

/-- Rounding up to the next power of two takes one more shift. -/
theorem roundWithAccuracy_of_carry {sign : Sign} {mantissa places : Nat} {exponent : Int}
    (length : mantissa.log2 = 52 + places) (least : -1074 ≤ exponent + places)
    (carried : (exactly mantissa >>> places).roundedMantissa = 2 ^ 53) :
    roundWithAccuracy Format.binary64 sign mantissa exponent .exact =
      .finite sign (2 ^ 52) (exponent + places + (1 : Nat)) (by decide) := by
  have again : (2 ^ 53 : Nat).log2 = 52 + 1 := Nat.log2_two_pow
  have halved : exactly (2 ^ 53) >>> 1 = exactly (2 ^ 52) := exactly_mul_shiftRight (2 ^ 52) 1
  unfold roundWithAccuracy
  rw [shiftToTargetExponent_eq length least]
  dsimp only
  rw [carried, shiftToTargetExponent_eq again (by omega), halved]
  have present : (2 : Nat) ^ 52 ≠ 0 := by decide
  exact dif_neg present

end Binary64

end RowQuery
