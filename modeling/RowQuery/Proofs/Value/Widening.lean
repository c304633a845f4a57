import RowQuery.Proofs.Decimal.Places
import RowQuery.Proofs.Value.Order

/-! # The order of widened numbers

Widening keeps the order of whole numbers (`RowQuery.widen_le_widen`), though it may make numbers
equal that are not. Numbers of at most 53 bits stay different (`RowQuery.widen_lt_widen`).
-/

namespace RowQuery

namespace NumericPair

/-- A float is no greater than another if they have an order, and it is not that one. -/
theorem float_le_iff {left right : Float} :
    left ≤ right ↔ (floatOrder? left right).any (· != .gt) = true := by
  rw [floatOrder?_eq_compare]
  change Float.le left right = true ↔ _
  rw [Float.le, decide_eq_true_iff]
  change (left.toModel.unpack.compare right.toModel.unpack).any (·.isLE) = true ↔ _
  rcases left.toModel.unpack.compare right.toModel.unpack with _ | _ | _ | _ <;> exact Iff.rfl

/-- A float is less than another if that is their order. -/
theorem float_lt_iff {left right : Float} :
    left < right ↔ floatOrder? left right = some .lt := by
  rw [floatOrder?_eq_compare, float_lt_iff_compare]

theorem float_beq_of_le {left right : Float} (le : left ≤ right) (ge : right ≤ left) :
    (left == right) = true := by
  rw [float_le_iff] at le ge
  rw [← floatOrder?_swap] at ge
  rw [float_beq_eq_beq_floatOrder?]
  cases found : floatOrder? left right with
  | none =>
      rw [found] at le
      exact absurd le Bool.false_ne_true
  | some order =>
      rw [found] at le ge
      cases order with
      | lt => exact absurd ge Bool.false_ne_true
      | eq => rfl
      | gt => exact absurd le Bool.false_ne_true

/-- Two widened numbers have the order of their places among the floats. -/
theorem floatOrder?_widen (left right : Int64) :
    floatOrder? (widen left) (widen right) =
      some (compare (Binary64.placeOf left.toInt) (Binary64.placeOf right.toInt)) := by
  have bounded (whole : Int64) : whole.toInt.natAbs < 2 ^ 64 := by
    have least := whole.le_toInt
    have most := whole.toInt_lt
    omega
  rw [floatOrder?_eq_compare]
  exact Binary64.compare_ofInt (bounded left) (bounded right)

theorem integerOrder_any_iff {left right : Int64} :
    (some (integerOrder left right)).any (· != .gt) = true ↔ left ≤ right := by
  rw [Option.any_some, bne_iff_ne, integerOrder_eq_compare, ← Std.isLE_compare]
  exact Ordering.ne_gt_iff_isLE

end NumericPair

/-- Widening keeps the order of whole numbers. -/
theorem widen_le_widen {left right : Int64} (le : left ≤ right) : widen left ≤ widen right := by
  have places := Binary64.placeOf_mono (Int64.le_iff_toInt_le.mp le)
  rw [NumericPair.float_le_iff, NumericPair.floatOrder?_widen, Option.any_some, bne_iff_ne]
  exact compare_le_iff_le.mpr places

/-- Whole numbers have the order that they have when widened, unless widening makes them equal. -/
theorem le_iff_widen {left right : Int64} :
    left ≤ right ↔
      widen left ≤ widen right ∧ ¬ (right < left ∧ (widen right == widen left) = true) := by
  constructor
  · intro le
    exact ⟨widen_le_widen le, fun both => Int64.not_lt.mpr le both.1⟩
  · intro ⟨widened, apart⟩
    by_contra greater
    have less : right < left := Int64.not_le.mp greater
    exact apart ⟨less, NumericPair.float_beq_of_le (widen_le_widen (Int64.le_of_lt less)) widened⟩

/-- Up to 53 bits widening keeps whole numbers apart. -/
theorem widen_lt_widen {left right : Int64} (less : left < right)
    (leftSmall : left.toInt.natAbs ≤ 2 ^ 53) (rightSmall : right.toInt.natAbs ≤ 2 ^ 53) :
    widen left < widen right := by
  have places := Binary64.placeOf_lt_placeOf (Int64.lt_iff_toInt_lt.mp less) leftSmall rightSmall
  rw [NumericPair.float_lt_iff, NumericPair.floatOrder?_widen]
  exact congrArg some (compare_lt_iff_lt.mpr places)

end RowQuery
