import Mathlib
import RowQuery.Value.Numeric

/-! # The order of numbers

Two numbers are put in order after promotion. Exchanging them reverses the order
(`RowQuery.NumericPair.order?_swap`), they are equal exactly if the order says so
(`RowQuery.NumericPair.equal_eq_beq_order?`), and only a NaN has no order
(`RowQuery.NumericPair.order?_eq_none_iff`). A whole number never becomes a NaN by promotion
(`RowQuery.widen_ne_nan`).
-/

namespace RowQuery

namespace Binary64

open Float.Model Float.Model.UnpackedFloat

/-! ### The order of floats -/

theorem compare_sign_swap (left right : Sign) : (compare left right).swap = compare right left := by
  cases left <;> cases right <;> rfl

theorem compare_magnitude_swap (leftExponent rightExponent : Int)
    (leftMantissa rightMantissa : Nat) :
    ((compare leftExponent rightExponent).then (compare leftMantissa rightMantissa)).swap =
      (compare rightExponent leftExponent).then (compare rightMantissa leftMantissa) := by
  rw [Ordering.swap_then, Int.compare_swap, Nat.compare_swap]

theorem compare_notANumber (left : UnpackedFloat) : left.compare .notANumber = none := by
  cases left with
  | infinity sign => cases sign <;> rfl
  | finite sign _ _ _ => cases sign <;> rfl
  | _ => rfl

/-- Exchanging two floats reverses their order. -/
theorem compare_swap (left right : UnpackedFloat) :
    (left.compare right).map Ordering.swap = right.compare left := by
  -- Beyond the signs only two infinities or two finite floats of one sign have to be compared.
  fun_cases UnpackedFloat.compare left right with
  | case1 => rw [compare_notANumber, Option.map_none]
  | case3 leftSign rightSign => exact congrArg some (compare_sign_swap leftSign rightSign)
  | case13 m₁ e₁ _ m₂ e₂ _ =>
      exact congrArg (fun order => some order.swap) (compare_magnitude_swap e₁ e₂ m₁ m₂)
  | case16 m₁ e₁ _ m₂ e₂ _ => exact congrArg some (compare_magnitude_swap e₁ e₂ m₁ m₂)
  | _ => simp only [UnpackedFloat.compare, Option.map_some, Option.map_none, Ordering.swap]

/-- Only what is not a number has no order. -/
theorem compare_eq_none_iff {left right : UnpackedFloat} :
    left.compare right = none ↔ left = .notANumber ∨ right = .notANumber := by
  fun_cases UnpackedFloat.compare left right <;> simp_all

/-! ### Numbers stay numbers -/

/-- Only what is not a number is written as a NaN. -/
theorem pack_ne_packedNaN {float : UnpackedFloat} (number : float ≠ .notANumber) :
    UnpackedFloat.pack Format.binary64 float ≠ packedNaN Format.binary64 := by
  have infinite (sign : Sign) : packedInfinity Format.binary64 sign ≠ packedNaN _ := by
    intro same
    have mantissa := congrArg unpackMantissa same
    rw [packedInfinity, packedNaN, unpackMantissa_packComponents,
      unpackMantissa_packComponents] at mantissa
    exact absurd mantissa (by decide)
  have moderate {sign : Sign} {exponent : BitVec 11} {mantissa : BitVec 52}
      (below : exponent ≠ -1#11) :
      packComponents Format.binary64 sign exponent mantissa ≠ packedNaN _ := by
    intro same
    have exponents := congrArg unpackExponent same
    rw [packedNaN, unpackExponent_packComponents, unpackExponent_packComponents] at exponents
    exact below exponents
  fun_cases UnpackedFloat.pack Format.binary64 float with
  | case1 => exact absurd rfl number
  | case2 sign => exact infinite sign
  | case3 sign => exact moderate (by decide)
  | case4 sign => exact infinite sign
  | case5 sign mantissa exponent positive bits biased inRange =>
      have width : 2 ^ Format.binary64.exponentBits = 2048 := rfl
      refine moderate fun full => ?_
      have same : biased % 2048 = 2047 := congrArg BitVec.toNat full
      omega
  | case6 => exact moderate (by decide)

theorem unpack_ne_notANumber_iff {x : Float} : x.toModel.unpack ≠ .notANumber ↔ x ≠ .nan := by
  rw [not_iff_not, ← Float.toBits_inj, ← UInt64.toBitVec_inj]
  exact unpack_eq_notANumber_iff_of_valid x.toModel.valid

/-- Writing a float gives a NaN only for what is not a number. -/
theorem ofModel_pack_ne_nan {float : UnpackedFloat} (number : float ≠ .notANumber) :
    Float.ofModel (Float.Model.pack float) ≠ .nan := by
  rw [← unpack_ne_notANumber_iff]
  intro same
  have written := (unpack_eq_notANumber_iff_of_valid (Float.Model.pack float).valid).mp same
  exact pack_ne_packedNaN number written

theorem roundWithAccuracy_ne_notANumber (format : Format) (sign : Sign) (mantissa : Nat)
    (exponent : Int) (accuracy : Accuracy) :
    roundWithAccuracy format sign mantissa exponent accuracy ≠ .notANumber := by
  unfold roundWithAccuracy
  dsimp only
  split
  · exact nofun
  · exact nofun

theorem normalize_ne_notANumber (format : Format) (mantissa exponent : Int) (sign : Sign) :
    UnpackedFloat.normalize format mantissa exponent sign ≠ .notANumber := by
  unfold UnpackedFloat.normalize
  split
  · exact roundWithAccuracy_ne_notANumber _ _ _ _ _
  · exact nofun
  · exact roundWithAccuracy_ne_notANumber _ _ _ _ _

/-- Multiplying by a finite float keeps numbers numbers. -/
theorem mul_ne_notANumber (format : Format) {left : UnpackedFloat} (number : left ≠ .notANumber)
    (sign : Sign) (mantissa : Nat) (exponent : Int) (positive : 0 < mantissa) :
    UnpackedFloat.mul format left (.finite sign mantissa exponent positive) ≠ .notANumber := by
  cases left with
  | notANumber => exact absurd rfl number
  | infinity _ => exact nofun
  | zero _ => exact nofun
  | finite _ _ _ _ => exact roundWithAccuracy_ne_notANumber _ _ _ _ _

theorem ofScientific_ne_notANumber (format : Format) (n : Nat) :
    UnpackedFloat.ofScientific format n 0 ≠ .notANumber := by
  unfold UnpackedFloat.ofScientific
  split
  · exact nofun
  · split
    · exact nofun
    · split
      · exact nofun
      · rw [if_pos (Int.le_refl 0)]
        exact roundWithAccuracy_ne_notANumber _ _ _ _ _

theorem ofNat_ne_nan (n : Nat) : Float.ofNat n ≠ .nan := by
  have unfolded : Float.ofNat n = Float.ofScientific n false 0 := rfl
  rw [unfolded, Float.ofScientific]
  split
  · next small =>
      -- A small number is converted as a word, and then multiplied by one.
      have one : (Float.exactlyRepresentablePowersOfTen[0]).toModel.unpack =
          .finite .positive 4503599627370496 (-52) (by decide) := rfl
      have word : n.toUInt64.toFloat.toModel.unpack ≠ .notANumber :=
        unpack_ne_notANumber_iff.mpr (ofModel_pack_ne_nan (normalize_ne_notANumber _ _ _ _))
      refine ofModel_pack_ne_nan ?_
      rw [one]
      exact mul_ne_notANumber _ word _ _ _ _
  · exact ofModel_pack_ne_nan (ofScientific_ne_notANumber _ n)

theorem neg_ne_nan {x : Float} (number : x ≠ .nan) : -x ≠ .nan := by
  have kept : x.toModel.unpack.neg ≠ .notANumber := by
    rw [← unpack_ne_notANumber_iff] at number
    cases unpacked : x.toModel.unpack with
    | notANumber => exact absurd unpacked number
    | _ => exact nofun
  exact ofModel_pack_ne_nan kept

end Binary64

/-- The float nearest to a whole number is a number. -/
theorem widen_ne_nan (whole : Int64) : widen whole ≠ .nan := by
  unfold widen Float.ofInt
  split
  · exact Binary64.ofNat_ne_nan _
  · exact Binary64.neg_ne_nan (Binary64.ofNat_ne_nan _)

namespace NumericPair

/-! ### The order of a pair -/

theorem float_lt_iff_compare {left right : Float} :
    left < right ↔ left.toModel.unpack.compare right.toModel.unpack = some .lt := by
  change Float.lt left right = true ↔ _
  rw [Float.lt, decide_eq_true_iff]
  exact beq_iff_eq (α := Option Ordering)

/-- Floats are put in the order of what their bits stand for. -/
theorem floatOrder?_eq_compare (left right : Float) :
    floatOrder? left right = left.toModel.unpack.compare right.toModel.unpack := by
  have equal : (left == right) = true ↔
      left.toModel.unpack.compare right.toModel.unpack = some .eq :=
    beq_iff_eq (α := Option Ordering)
  have turned := Binary64.compare_swap left.toModel.unpack right.toModel.unpack
  simp only [floatOrder?, float_lt_iff_compare, equal, ← turned]
  cases left.toModel.unpack.compare right.toModel.unpack with
  | none => rfl
  | some order => cases order <;> rfl

theorem float_beq_eq_beq_floatOrder? (left right : Float) :
    (left == right) = (floatOrder? left right == some .eq) := by
  rw [floatOrder?_eq_compare]
  rfl

theorem floatOrder?_swap (left right : Float) :
    (floatOrder? left right).map Ordering.swap = floatOrder? right left := by
  rw [floatOrder?_eq_compare, floatOrder?_eq_compare]
  exact Binary64.compare_swap _ _

theorem floatOrder?_eq_none_iff {left right : Float} :
    floatOrder? left right = none ↔ left = .nan ∨ right = .nan := by
  rw [floatOrder?_eq_compare, Binary64.compare_eq_none_iff, ← not_iff_not, not_or, not_or]
  exact and_congr Binary64.unpack_ne_notANumber_iff Binary64.unpack_ne_notANumber_iff

theorem integerOrder_eq_compare (left right : Int64) :
    integerOrder left right = compare left right :=
  rfl

theorem integerOrder_swap (left right : Int64) :
    (integerOrder left right).swap = integerOrder right left := by
  rw [integerOrder_eq_compare, integerOrder_eq_compare]
  exact Std.OrientedOrd.eq_swap.symm

theorem integer_beq_eq_beq_integerOrder (left right : Int64) :
    (left == right) = (some (integerOrder left right) == some .eq) := by
  rw [integerOrder_eq_compare, Bool.eq_iff_iff, beq_iff_eq, beq_iff_eq, Option.some.injEq,
    Std.compare_eq_iff_eq]

/-- A pair with its numbers exchanged. -/
def swap : NumericPair → NumericPair
  | .integers left right => .integers right left
  | .floats left right => .floats right left

/-- Whether one of two numbers is a NaN. -/
def HasNaN : NumericPair → Prop
  | .integers _ _ => False
  | .floats left right => left = .nan ∨ right = .nan

/-- Exchanging two numbers reverses their order. -/
theorem order?_swap (pair : NumericPair) : pair.swap.order? = pair.order?.map Ordering.swap := by
  cases pair with
  | integers left right => exact congrArg some (integerOrder_swap left right).symm
  | floats left right => exact (floatOrder?_swap left right).symm

/-- Two numbers have no order exactly if one of them is a NaN. -/
theorem order?_eq_none_iff {pair : NumericPair} : pair.order? = none ↔ pair.HasNaN := by
  cases pair with
  | integers left right => exact iff_of_false nofun id
  | floats left right => exact floatOrder?_eq_none_iff

/-- Two numbers are equal exactly if their order says so. -/
theorem equal_eq_beq_order? (pair : NumericPair) : pair.equal = (pair.order? == some .eq) := by
  cases pair with
  | integers left right => exact integer_beq_eq_beq_integerOrder left right
  | floats left right => exact float_beq_eq_beq_floatOrder? left right

/-! ### The pair of two values -/

/-- Exchanging two values exchanges the numbers that they are promoted to. -/
theorem ofValues?_swap (left right : Value) :
    ofValues? right left = (ofValues? left right).map swap := by
  cases left <;> cases right <;> rfl

/-- Two values are promoted exactly if they are numbers. -/
theorem isSome_ofValues?_iff {left right : Value} :
    (ofValues? left right).isSome ↔ left.isNumeric ∧ right.isNumeric := by
  cases left <;> cases right <;> simp [ofValues?, Value.isNumeric]

/-- Promotion makes no NaN of other numbers. -/
theorem hasNaN_iff_of_ofValues? {left right : Value} {pair : NumericPair}
    (promoted : ofValues? left right = some pair) :
    pair.HasNaN ↔ left = .float .nan ∨ right = .float .nan := by
  unfold ofValues? at promoted
  split at promoted
  case h_5 => exact absurd promoted nofun
  all_goals
    obtain rfl := Option.some.inj promoted
    simp [HasNaN, widen_ne_nan]

end NumericPair

end RowQuery
