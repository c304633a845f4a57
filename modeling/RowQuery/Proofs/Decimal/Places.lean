import RowQuery.Proofs.Decimal.Rounding

/-! # The places of whole numbers among the floats

Normal floats of one sign are put in order by their exponent and then by their mantissa. The place
of a float is its mantissa with the exponent above it, so that rounding up to the next power of two
is the next place (`RowQuery.Binary64.placed_roundWithAccuracy`), and floats have the order of their
places (`RowQuery.Binary64.compare_of_placed`). The place of the float nearest to an integer grows
with the integer (`RowQuery.Binary64.placeOf_mono`), and strictly so up to 53 bits
(`RowQuery.Binary64.placeOf_lt_placeOf`).
-/

namespace RowQuery

namespace Binary64

open Float.Model Float.Model.UnpackedFloat

/-! ### Places -/

/-- Whether a finite float has a sign and, with its exponent above its mantissa, a magnitude. -/
inductive Placed : UnpackedFloat → Sign → Nat → Prop where
  | zero (sign : Sign) : Placed (.zero sign) sign 0
  | finite {sign : Sign} {mantissa : Nat} {exponent : Int} {positive : 0 < mantissa}
      (normal : 2 ^ 52 ≤ mantissa ∧ mantissa < 2 ^ 53) (range : -52 ≤ exponent ∧ exponent ≤ 900) :
      Placed (.finite sign mantissa exponent positive) sign
        (mantissa + 2 ^ 52 * (exponent + 52).toNat)

/-- A carry into the next exponent is the next place. -/
theorem placed_roundWithAccuracy (sign : Sign) {mantissa places : Nat} {exponent : Int}
    (length : mantissa.log2 = 52 + places)
    (range : -52 ≤ exponent + places ∧ exponent + places < 900) :
    Placed (roundWithAccuracy Format.binary64 sign mantissa exponent .exact) sign
      ((exactly mantissa >>> places).roundedMantissa +
        2 ^ 52 * (exponent + places + 52).toNat) := by
  obtain ⟨least, most⟩ := roundedMantissa_bounds length
  rcases Nat.eq_or_lt_of_le most with carried | below
  · have moved : 2 ^ 53 + 2 ^ 52 * (exponent + places + 52).toNat =
        2 ^ 52 + 2 ^ 52 * (exponent + places + (1 : Nat) + 52).toNat := by omega
    rw [roundWithAccuracy_of_carry length (by omega) carried, carried, moved]
    exact .finite (by decide) (by omega)
  · rw [roundWithAccuracy_of_lt length (by omega) rfl ⟨least, below⟩ (by omega)]
    exact .finite ⟨least, below⟩ (by omega)

/-! ### Packing -/

/-- The leading bit of a normal mantissa is not stored. -/
theorem toNat_leading {mantissa : Nat} (normal : 2 ^ 52 ≤ mantissa ∧ mantissa < 2 ^ 53) :
    (1#1 ++ BitVec.ofNat 52 mantissa).toNat = mantissa := by
  have stored : mantissa % 2 ^ 52 = mantissa - 2 ^ 52 := by omega
  rw [BitVec.toNat_append, ← Nat.shiftLeft_add_eq_or_of_lt (BitVec.isLt _), BitVec.toNat_ofNat,
    BitVec.toNat_ofNat, stored, Nat.shiftLeft_eq]
  omega

/-- A float with a place is read as it was written. -/
theorem unpack_pack {float : UnpackedFloat} {sign : Sign} {place : Nat}
    (placed : Placed float sign place) : (Float.Model.pack float).unpack = float := by
  change UnpackedFloat.unpack Format.binary64 (UnpackedFloat.pack Format.binary64 float) = float
  cases placed with
  | zero => exact unpack_packedZero
  | @finite _ mantissa exponent positive normal range =>
      have bias : Format.binary64.exponentBias = 1023 := rfl
      have length : mantissa.log2 + 1 = Format.binary64.mantissaBits := by
        rw [log2_of_normal normal]
        rfl
      rw [UnpackedFloat.pack]
      dsimp only
      rw [bias, if_pos length]
      generalize field : (exponent + (1023 : Nat) + (52 : Nat)).toNat = biased
      have inField : 0 < biased ∧ biased < 2047 := by omega
      have exponent_eq : (biased : Int) - ((1023 : Nat) + (52 : Nat)) = exponent := by omega
      rw [if_neg (Nat.not_le_of_lt (Nat.succ_lt_succ inField.2))]
      have stored : (BitVec.ofNat 11 biased).toNat = biased := by
        rw [BitVec.toNat_ofNat, Nat.mod_eq_of_lt (by omega)]
      have full : -1#11 = BitVec.ofNat 11 2047 := rfl
      have notFull : BitVec.ofNat 11 biased ≠ -1#11 := by
        rw [full]
        exact exponentField_ne (by omega) (by decide) (Nat.ne_of_lt inField.2)
      have notEmpty : BitVec.ofNat 11 biased ≠ 0#11 :=
        exponentField_ne (by omega) (by decide) (Nat.ne_of_gt inField.1)
      unfold UnpackedFloat.unpack
      simp only [unpackExponent_packComponents, unpackMantissa_packComponents,
        unpackSign_packComponents, if_neg notFull, if_neg notEmpty, toNat_leading normal, stored,
        bias, exponent_eq, Sign.ofBitVec_toBitVec]

theorem Placed.packed {float : UnpackedFloat} {sign : Sign} {place : Nat}
    (placed : Placed float sign place) : Placed (Float.Model.pack float).unpack sign place := by
  rw [unpack_pack placed]
  exact placed

/-! ### The order of places -/

/-- A place on its side of zero. -/
def signed : Sign → Nat → Int
  | .positive, place => place
  | .negative, place => -place

theorem signed_zero (sign : Sign) : signed sign 0 = 0 := by
  cases sign <;> rfl

/-- A mantissa of full length stays below the step to the next exponent. -/
theorem compare_place {m n : Nat} {e f : Int} (first : 2 ^ 52 ≤ m ∧ m < 2 ^ 53) (low : -52 ≤ e)
    (second : 2 ^ 52 ≤ n ∧ n < 2 ^ 53) (low' : -52 ≤ f) :
    (compare e f).then (compare m n) =
      compare (m + 2 ^ 52 * (e + 52).toNat) (n + 2 ^ 52 * (f + 52).toNat) := by
  rcases lt_trichotomy e f with below | same | above
  · rw [compare_lt_iff_lt.mpr below]
    refine (compare_lt_iff_lt.mpr ?_).symm
    omega
  · subst same
    rw [compare_eq_iff_eq.mpr rfl, Ordering.eq_then]
    rcases lt_trichotomy m n with below | same | above
    · rw [compare_lt_iff_lt.mpr below]
      exact (compare_lt_iff_lt.mpr (by omega)).symm
    · subst same
      rw [compare_eq_iff_eq.mpr rfl, compare_eq_iff_eq.mpr rfl]
    · rw [compare_gt_iff_gt.mpr above]
      exact (compare_gt_iff_gt.mpr (by omega)).symm
  · rw [compare_gt_iff_gt.mpr above]
    refine (compare_gt_iff_gt.mpr ?_).symm
    omega

theorem compare_positive (m n : Nat) : compare (m : Int) (n : Int) = compare m n := by
  rw [← cmp_eq_compare, ← cmp_eq_compare]
  exact Nat.strictMono_cast.cmp_map_eq m n

theorem compare_negative (m n : Nat) : compare (-(m : Int)) (-(n : Int)) = (compare m n).swap := by
  have turned : StrictAnti fun place : Nat => -(place : Int) := fun _ _ less =>
    Int.neg_lt_neg (Int.ofNat_lt.mpr less)
  rw [Nat.compare_swap, ← cmp_eq_compare, ← cmp_eq_compare]
  exact turned.cmp_map_eq m n

/-- Placed floats have the order of their places. -/
theorem compare_of_placed {left right : UnpackedFloat} {leftSign rightSign : Sign}
    {leftPlace rightPlace : Nat} (first : Placed left leftSign leftPlace)
    (second : Placed right rightSign rightPlace) :
    left.compare right =
      some (compare (signed leftSign leftPlace) (signed rightSign rightPlace)) := by
  cases first with
  | zero =>
      rw [signed_zero]
      cases second with
      | zero => rw [signed_zero]; rfl
      | finite normal range =>
          cases rightSign with
          | positive => exact congrArg some (compare_lt_iff_lt.mpr (by rw [signed]; omega)).symm
          | negative => exact congrArg some (compare_gt_iff_gt.mpr (by rw [signed]; omega)).symm
  | finite normal range =>
      cases second with
      | zero =>
          rw [signed_zero]
          cases leftSign with
          | positive => exact congrArg some (compare_gt_iff_gt.mpr (by rw [signed]; omega)).symm
          | negative => exact congrArg some (compare_lt_iff_lt.mpr (by rw [signed]; omega)).symm
      | finite normal' range' =>
          have places := compare_place normal range.1 normal' range'.1
          cases leftSign with
          | positive =>
              cases rightSign with
              | positive => exact congrArg some (places.trans (compare_positive _ _).symm)
              | negative =>
                  refine congrArg some (compare_gt_iff_gt.mpr ?_).symm
                  rw [signed, signed]
                  omega
          | negative =>
              cases rightSign with
              | positive =>
                  refine congrArg some (compare_lt_iff_lt.mpr ?_).symm
                  rw [signed, signed]
                  omega
              | negative =>
                  have turned := congrArg Ordering.swap places
                  exact congrArg some (turned.trans (compare_negative _ _).symm)

/-! ### Whole numbers -/

/-- The leading bits of a positive number, rounded to a mantissa of full length. -/
def significand (n : Nat) : Nat :=
  (exactly (n <<< 53) >>> (n.log2 + 1)).roundedMantissa

/-- The place of a number among the floats, of which zero is the first. -/
def place (n : Nat) : Nat :=
  if n = 0 then 0 else significand n + 2 ^ 52 * n.log2

theorem log2_shiftLeft {n : Nat} (positive : n ≠ 0) (places : Nat) :
    (n <<< places).log2 = n.log2 + places := by
  have least := Nat.log2_self_le positive
  have most : n < 2 ^ (n.log2 + 1) := Nat.lt_log2_self
  rw [Nat.shiftLeft_eq, Nat.log2_eq_iff (Nat.mul_ne_zero positive (Nat.two_pow_pos _).ne'),
    Nat.pow_add, Nat.add_right_comm, Nat.pow_add]
  exact ⟨Nat.mul_le_mul_right _ least, Nat.mul_lt_mul_of_pos_right most (Nat.two_pow_pos _)⟩

theorem log2_le_log2 {m n : Nat} (positive : m ≠ 0) (le : m ≤ n) : m.log2 ≤ n.log2 :=
  (Nat.le_log2 (by omega)).mpr (Nat.le_trans (Nat.log2_self_le positive) le)

theorem significand_bounds {n : Nat} (positive : n ≠ 0) :
    2 ^ 52 ≤ significand n ∧ significand n ≤ 2 ^ 53 := by
  apply roundedMantissa_bounds
  rw [log2_shiftLeft positive]
  omega

/-- A greater number has no lesser place. -/
theorem place_mono {m n : Nat} (le : m ≤ n) : place m ≤ place n := by
  unfold place
  split
  · exact Nat.zero_le _
  · next positive =>
      have above : n ≠ 0 := by omega
      rw [if_neg above]
      rcases Nat.eq_or_lt_of_le (log2_le_log2 positive le) with same | shorter
      · -- The same bits are dropped.
        have rounded : significand m ≤ significand n := by
          unfold significand
          rw [same]
          apply roundedMantissa_mono
          apply rank_shiftRight_mono
          rw [rank_exactly, rank_exactly, Nat.shiftLeft_eq, Nat.shiftLeft_eq]
          omega
        omega
      · have most := (significand_bounds positive).2
        have least := (significand_bounds above).1
        omega

/-- A number of at most 53 bits loses none of them. -/
theorem significand_of_lt {n : Nat} (positive : n ≠ 0) (below : n < 2 ^ 53) :
    significand n = n <<< (52 - n.log2) := by
  have length : n.log2 < 53 := (Nat.log2_lt positive).mpr below
  have zeros : n <<< 53 = n <<< (52 - n.log2) * 2 ^ (n.log2 + 1) := by
    rw [← Nat.shiftLeft_eq, ← Nat.shiftLeft_add]
    congr 1
    omega
  rw [significand, zeros, exactly_mul_shiftRight]
  rfl

theorem significand_lt {n : Nat} (positive : n ≠ 0) (below : n < 2 ^ 53) :
    significand n < 2 ^ 53 := by
  have length : (n <<< (52 - n.log2)).log2 < 53 := by
    have small : n.log2 < 53 := (Nat.log2_lt positive).mpr below
    rw [log2_shiftLeft positive]
    omega
  rw [significand_of_lt positive below]
  refine (Nat.log2_lt ?_).mp length
  rw [Nat.shiftLeft_eq]
  exact Nat.mul_ne_zero positive (Nat.two_pow_pos _).ne'

/-- Up to 53 bits each number has a place of its own. -/
theorem place_lt_place {m n : Nat} (less : m < n) (small : n ≤ 2 ^ 53) : place m < place n := by
  have above : n ≠ 0 := by omega
  have least := (significand_bounds above).1
  unfold place
  rw [if_neg above]
  split
  · omega
  · next positive =>
      have exactLess := significand_lt positive (by omega)
      have length := log2_le_log2 positive less.le
      rcases Nat.eq_or_lt_of_le length with same | shorter
      · have below : n < 2 ^ 53 := by
          refine (Nat.log2_lt above).mp ?_
          rw [← same]
          exact (Nat.log2_lt positive).mpr (by omega)
        rw [significand_of_lt positive (by omega), significand_of_lt above below, same,
          Nat.shiftLeft_eq, Nat.shiftLeft_eq]
        have scaled := Nat.mul_lt_mul_of_pos_right less (Nat.two_pow_pos (52 - n.log2))
        omega
      · omega

/-! ### The floats of whole numbers -/

theorem placed_ofScientific {n : Nat} (positive : n ≠ 0) (below : n < 2 ^ 64) :
    Placed (UnpackedFloat.ofScientific Format.binary64 n 0) .positive (place n) := by
  have small : n.log2 < 64 := (Nat.log2_lt positive).mpr below
  have length : (n <<< 53).log2 = 52 + (n.log2 + 1) := by
    rw [log2_shiftLeft positive]
    omega
  have range : -52 ≤ -53 + ((n.log2 + 1 : Nat) : Int) ∧
      -53 + ((n.log2 + 1 : Nat) : Int) < 900 := by omega
  have exponent : (-53 + ((n.log2 + 1 : Nat) : Int) + 52).toNat = n.log2 := by omega
  have rounded := placed_roundWithAccuracy .positive length range
  rw [exponent] at rounded
  rw [ofScientific_eq_roundWithAccuracy positive, place, if_neg positive]
  exact rounded

theorem placed_round {n : Nat} (positive : n ≠ 0) (below : n < 2 ^ 53) :
    Placed (UnpackedFloat.round Format.binary64 .positive n 0) .positive (place n) := by
  have width : Format.binary64.mantissaBits = 53 := rfl
  have floor : Format.binary64.minExponent = -1074 := by decide
  have small : n.log2 < 53 := (Nat.log2_lt positive).mpr below
  have target : (0 - Format.binary64.targetExponent (totalExponent n 0)).toNat = 52 - n.log2 := by
    rw [Format.targetExponent, totalExponent, width, floor]
    omega
  have length : (n <<< (52 - n.log2)).log2 = 52 + 0 := by
    rw [log2_shiftLeft positive]
    omega
  have place_eq : place n = (exactly (n <<< (52 - n.log2)) >>> 0).roundedMantissa +
      2 ^ 52 * (0 - ((52 - n.log2 : Nat) : Int) + (0 : Nat) + 52).toNat := by
    have exponent : (0 - ((52 - n.log2 : Nat) : Int) + (0 : Nat) + 52).toNat = n.log2 := by omega
    rw [place, if_neg positive, significand_of_lt positive below, exponent]
    rfl
  rw [place_eq, UnpackedFloat.round]
  dsimp only [decreaseExponent]
  rw [target]
  exact placed_roundWithAccuracy .positive length (by omega)

/-- Multiplying by one moves no float. -/
theorem mul_one_of_placed {float : UnpackedFloat} {sign : Sign} {place : Nat}
    (placed : Placed float sign place) :
    UnpackedFloat.mul Format.binary64 float
      (.finite .positive 4503599627370496 (-52) (by decide)) = float := by
  have kept : sign * .positive = sign := by cases sign <;> rfl
  cases placed with
  | zero => rw [UnpackedFloat.mul, kept]
  | @finite _ mantissa exponent positive normal range =>
      have length : (mantissa * 2 ^ 52).log2 = 52 + 52 := by
        rw [← Nat.shiftLeft_eq, log2_shiftLeft positive.ne', log2_of_normal normal]
      have same : (exactly (mantissa * 2 ^ 52) >>> 52).roundedMantissa = mantissa := by
        rw [exactly_mul_shiftRight, roundedMantissa_exactly]
      have exponent_eq : exponent + -52 + (52 : Nat) = exponent := by omega
      have rounded : roundWithAccuracy Format.binary64 sign (mantissa * 2 ^ 52) (exponent + -52)
          .exact = _ := roundWithAccuracy_of_lt length (by omega) same normal positive
      rw [exponent_eq] at rounded
      rw [UnpackedFloat.mul, kept]
      exact rounded

theorem placed_toFloat {n : Nat} (below : n < 2 ^ 53) :
    Placed n.toUInt64.toFloat.toModel.unpack .positive (place n) := by
  have word : n.toUInt64.toNat = n := Nat.mod_eq_of_lt (Nat.lt_trans below (by decide))
  change Placed (Float.Model.pack (UnpackedFloat.normalize Format.binary64 n.toUInt64.toNat 0
    .positive)).unpack .positive (place n)
  rw [word]
  by_cases zero : n = 0
  · subst zero
    exact (Placed.zero .positive).packed
  · have above : compare (n : Int) 0 = .gt := compare_gt_iff_gt.mpr (by omega)
    rw [UnpackedFloat.normalize, above]
    exact (placed_round zero below).packed

/-- The float nearest to a number has the place of the number. -/
theorem placed_ofNat {n : Nat} (below : n < 2 ^ 64) :
    Placed (Float.ofNat n).toModel.unpack .positive (place n) := by
  have unfolded : Float.ofNat n = Float.ofScientific n false 0 := rfl
  rw [unfolded, Float.ofScientific]
  split
  · next small =>
      -- A small number is converted as a word, and then multiplied by one.
      have one : (Float.exactlyRepresentablePowersOfTen[0]).toModel.unpack =
          .finite .positive 4503599627370496 (-52) (by decide) := rfl
      have word : Placed n.toUInt64.toFloat.toModel.unpack .positive (place n) :=
        placed_toFloat small.1
      change Placed (Float.Model.pack (UnpackedFloat.mul Format.binary64
        n.toUInt64.toFloat.toModel.unpack
          (Float.exactlyRepresentablePowersOfTen[0]).toModel.unpack)).unpack .positive (place n)
      rw [one, mul_one_of_placed word]
      exact word.packed
  · next large =>
      have positive : n ≠ 0 := by
        rintro rfl
        exact large (by decide)
      exact (placed_ofScientific positive below).packed

/-! ### Integers -/

/-- The place of an integer among the floats. -/
def placeOf : Int → Int
  | .ofNat n => place n
  | .negSucc n => -place (n + 1)

theorem placeOf_mono {m n : Int} (le : m ≤ n) : placeOf m ≤ placeOf n := by
  cases m with
  | ofNat m =>
      cases n with
      | ofNat n => exact Int.ofNat_le.mpr (place_mono (Int.ofNat_le.mp le))
      | negSucc n =>
          have nonnegative := Int.le_trans (Int.natCast_nonneg m) le
          exact absurd nonnegative (Int.not_le_of_gt (Int.negSucc_lt_zero n))
  | negSucc m =>
      cases n with
      | ofNat n =>
          rw [placeOf, placeOf]
          omega
      | negSucc n =>
          have turned : place (n + 1) ≤ place (m + 1) := place_mono (by omega)
          rw [placeOf, placeOf]
          omega

/-- Up to 53 bits each integer has a place of its own. -/
theorem placeOf_lt_placeOf {m n : Int} (less : m < n) (left : m.natAbs ≤ 2 ^ 53)
    (right : n.natAbs ≤ 2 ^ 53) : placeOf m < placeOf n := by
  cases m with
  | ofNat m =>
      cases n with
      | ofNat n => exact Int.ofNat_lt.mpr (place_lt_place (Int.ofNat_lt.mp less) right)
      | negSucc n =>
          have positive := Int.lt_of_le_of_lt (Int.natCast_nonneg m) less
          exact absurd positive (Int.not_lt_of_ge (Int.negSucc_lt_zero n).le)
  | negSucc m =>
      have first : place 0 < place (m + 1) := place_lt_place (Nat.succ_pos m) left
      cases n with
      | ofNat n =>
          rw [placeOf, placeOf]
          omega
      | negSucc n =>
          have turned : place (n + 1) < place (m + 1) := place_lt_place (by omega) left
          rw [placeOf, placeOf]
          omega

theorem placed_neg {float : UnpackedFloat} {place : Nat} (placed : Placed float .positive place) :
    Placed float.neg .negative place := by
  cases placed with
  | zero => exact .zero .negative
  | finite normal range => exact .finite normal range

/-- The float nearest to an integer has the place of the integer. -/
theorem placed_ofInt {n : Int} (bounded : n.natAbs < 2 ^ 64) :
    ∃ sign place, Placed (Float.ofInt n).toModel.unpack sign place ∧
      signed sign place = placeOf n := by
  cases n with
  | ofNat n => exact ⟨.positive, place n, placed_ofNat bounded, rfl⟩
  | negSucc n =>
      have placed : Placed (Float.ofNat (n + 1)).toModel.unpack.neg .negative (place (n + 1)) :=
        placed_neg (placed_ofNat bounded)
      exact ⟨.negative, place (n + 1), placed.packed, rfl⟩

/-- The floats nearest to two integers have the order of the places of the integers. -/
theorem compare_ofInt {m n : Int} (left : m.natAbs < 2 ^ 64) (right : n.natAbs < 2 ^ 64) :
    (Float.ofInt m).toModel.unpack.compare (Float.ofInt n).toModel.unpack =
      some (compare (placeOf m) (placeOf n)) := by
  obtain ⟨leftSign, leftPlace, leftPlaced, leftSame⟩ := placed_ofInt left
  obtain ⟨rightSign, rightPlace, rightPlaced, rightSame⟩ := placed_ofInt right
  rw [compare_of_placed leftPlaced rightPlaced, leftSame, rightSame]

end Binary64

end RowQuery
