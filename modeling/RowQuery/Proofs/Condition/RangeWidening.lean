import RowQuery.Proofs.Condition.Range
import RowQuery.Proofs.Value.Widening

/-! # Range tests on widened numbers

A range test widens whole numbers for each of its two comparisons on its own. It agrees with the
test of the widened numbers, except where the field and a bound are whole numbers, the field is
outside the bound, and widening makes them equal (`RowQuery.Expr.holds_between_widened`). That takes
numbers beyond the 53 bits of a float.
-/

namespace RowQuery

namespace Value

/-- The float that a number is widened to. -/
def asFloat? : Value → Option Float
  | .integer whole => some (widen whole)
  | .float x => some x
  | _ => none

/-- Whether two values are whole numbers, the first less than the second, that become equal when
they are widened. -/
def LessUntilWidened (less greater : Value) : Prop :=
  ∃ left right, less = .integer left ∧ greater = .integer right ∧ left < right ∧
    (widen left == widen right) = true

/-- Whether a value is no whole number beyond the 53 bits of a float. -/
def Narrow (value : Value) : Prop :=
  ∀ whole, value = .integer whole → whole.toInt.natAbs ≤ 2 ^ 53

variable {left right : Value} {x y : Float}

theorem isNumeric_of_asFloat? (widened : left.asFloat? = some x) : left.isNumeric = true := by
  cases left with
  | integer whole => rfl
  | float found => rfl
  | _ => exact absurd widened nofun

/-- Two numbers are whole, or are compared as the floats that they are widened to. -/
theorem promoted_cases (leftWidened : left.asFloat? = some x)
    (rightWidened : right.asFloat? = some y) :
    (∃ m n, left = .integer m ∧ right = .integer n) ∨
      NumericPair.ofValues? left right = some (.floats x y) ∧ ¬ right.LessUntilWidened left := by
  cases left with
  | integer m =>
      cases leftWidened
      cases right with
      | integer n => exact .inl ⟨m, n, rfl, rfl⟩
      | float y =>
          cases rightWidened
          exact .inr ⟨rfl, by simp [LessUntilWidened]⟩
      | _ => exact absurd rightWidened nofun
  | float x =>
      cases leftWidened
      have apart : ¬ right.LessUntilWidened (.float x) := by simp [LessUntilWidened]
      cases right with
      | integer n =>
          cases rightWidened
          exact .inr ⟨rfl, apart⟩
      | float y =>
          cases rightWidened
          exact .inr ⟨rfl, apart⟩
      | _ => exact absurd rightWidened nofun
  | _ => exact absurd leftWidened nofun

/-- A comparison is one of the widened numbers, unless widening makes a greater number equal. -/
theorem compare_lessEq_iff_widened (leftWidened : left.asFloat? = some x)
    (rightWidened : right.asFloat? = some y) :
    left.compare .lessEq right = .ok true ↔ x ≤ y ∧ ¬ right.LessUntilWidened left := by
  obtain ⟨m, n, rfl, rfl⟩ | ⟨promoted, apart⟩ := promoted_cases leftWidened rightWidened
  · cases leftWidened
    cases rightWidened
    have less_iff : (integer n).LessUntilWidened (.integer m) ↔
        n < m ∧ (widen n == widen m) = true := by
      simp [LessUntilWidened]
    have promoted : NumericPair.ofValues? (.integer m) (.integer n) = some (.integers m n) := rfl
    rw [compare_eq_ok_true_iff promoted, less_iff, ← le_iff_widen]
    exact NumericPair.integerOrder_any_iff
  · rw [compare_eq_ok_true_iff promoted, and_iff_left apart, NumericPair.float_le_iff]
    rfl

theorem compare_greaterEq_iff_widened (leftWidened : left.asFloat? = some x)
    (rightWidened : right.asFloat? = some y) :
    left.compare .greaterEq right = .ok true ↔ y ≤ x ∧ ¬ left.LessUntilWidened right := by
  rw [compare_converse_eq_ok_iff]
  exact compare_lessEq_iff_widened rightWidened leftWidened

/-- Numbers of at most 53 bits do not become equal. -/
theorem not_lessUntilWidened_of_narrow (leftNarrow : left.Narrow) (rightNarrow : right.Narrow) :
    ¬ left.LessUntilWidened right := by
  rintro ⟨m, n, rfl, rfl, less, same⟩
  have apart := widen_lt_widen less (leftNarrow m rfl) (rightNarrow n rfl)
  rw [NumericPair.float_lt_iff] at apart
  rw [NumericPair.float_beq_eq_beq_floatOrder?, apart] at same
  exact Bool.false_ne_true same

/-- A range test of three numbers always has a decision. -/
theorem inRange_of_isNumeric {found lower upper : Value} (number : found.isNumeric = true)
    (lowNumber : lower.isNumeric = true) (highNumber : upper.isNumeric = true) :
    found.inRange lower upper = .ok (within lower upper found) := by
  obtain ⟨mode, items, rfl⟩ | ⟨-, -, opened⟩ := inRange_cases found lower upper
  · exact absurd number nofun
  · rw [opened, requireRange_eq, if_pos ⟨number, lowNumber, highNumber⟩]
    rfl

end Value

namespace Expr

variable {config : Config} {row : Node} {field low high : Expr} {found lower upper : Value}
  {x least greatest : Float}

/-- **Range tests on widened numbers.** Let the operands be numbers. The test then has a decision,
and its negation has the opposite one. The test says whether the widened field lies between the
widened bounds, both included, except that it fails for a whole number outside a whole bound that
becomes equal to the bound. So it is the test of the widened numbers if no whole number among the
operands has more than 53 bits. -/
theorem holds_between_widened (fieldValue : field.value config row = .ok found)
    (lowValue : low.value config row = .ok lower) (highValue : high.value config row = .ok upper)
    (fieldWidened : found.asFloat? = some x) (lowWidened : lower.asFloat? = some least)
    (highWidened : upper.asFloat? = some greatest) :
    ∃ decision, (between field low high false).holds config row = .ok decision ∧
      (between field low high true).holds config row = .ok (!decision) ∧
      (decision = true ↔ (least ≤ x ∧ x ≤ greatest) ∧
        ¬ found.LessUntilWidened lower ∧ ¬ upper.LessUntilWidened found) ∧
      (found.Narrow → lower.Narrow → upper.Narrow →
        (decision = true ↔ least ≤ x ∧ x ≤ greatest)) := by
  have decided := Value.inRange_of_isNumeric (Value.isNumeric_of_asFloat? fieldWidened)
    (Value.isNumeric_of_asFloat? lowWidened) (Value.isNumeric_of_asFloat? highWidened)
  have within_iff : Value.within lower upper found = true ↔ (least ≤ x ∧ x ≤ greatest) ∧
      ¬ found.LessUntilWidened lower ∧ ¬ upper.LessUntilWidened found := by
    rw [Value.within_iff, Value.compare_greaterEq_iff_widened fieldWidened lowWidened,
      Value.compare_lessEq_iff_widened fieldWidened highWidened]
    exact and_and_and_comm
  refine ⟨Value.within lower upper found, ?_, ?_, within_iff, fun narrow low high => ?_⟩
  · rw [holds_between_of_values fieldValue lowValue highValue, decided]
    exact congrArg Except.ok (Bool.bne_false _)
  · rw [holds_between_of_values fieldValue lowValue highValue, decided]
    exact congrArg Except.ok (Bool.bne_true _)
  · have below := Value.not_lessUntilWidened_of_narrow narrow low
    have above := Value.not_lessUntilWidened_of_narrow high narrow
    rw [within_iff, and_iff_left ⟨below, above⟩]

/-- The number 3 lies between 2 and 5.0. -/
theorem three_within_widened :
    let row := Node.object [("a", .number (.ofInt64 3))]
    let low := literal (.integer 2)
    let high := literal (.float 5)
    (column "a").value {} row = .ok (.integer 3) ∧ low.value {} row = .ok (.integer 2) ∧
    high.value {} row = .ok (.float 5) ∧
    (between (column "a") low high false).holds {} row = .ok true ∧
    (between (column "a") low high true).holds {} row = .ok false := by
  intro row low high
  have fieldValue : (column "a").value {} row = .ok (.integer 3) := rfl
  have lowValue : low.value {} row = .ok (.integer 2) := rfl
  have highValue : high.value {} row = .ok (.float 5) := rfl
  obtain ⟨decision, kept, refused, -, law⟩ :=
    holds_between_widened fieldValue lowValue highValue rfl rfl rfl
  have inside : decision = true := by
    refine (law ?_ ?_ nofun).mpr (by decide)
    · rintro whole ⟨⟩
      decide
    · rintro whole ⟨⟩
      decide
  rw [inside] at kept refused
  exact ⟨fieldValue, lowValue, highValue, kept, refused⟩

/-- Beside a bound that is a float, the number 2⁵³ is still told apart from the bound 2⁵³ + 1, which
is the same float. -/
theorem lower_bound_stays_whole :
    let row := Node.object [("a", .number (.ofInt64 9007199254740992))]
    let low := literal (.integer 9007199254740993)
    let high := literal (.float 1e16)
    (column "a").value {} row = .ok (.integer 9007199254740992) ∧
    low.value {} row = .ok (.integer 9007199254740993) ∧
    high.value {} row = .ok (.float 1e16) ∧
    widen 9007199254740993 ≤ widen 9007199254740992 ∧
    widen 9007199254740992 ≤ (1e16 : Float) ∧
    (between (column "a") low high false).holds {} row = .ok false :=
  ⟨rfl, rfl, rfl, by decide, by decide, rfl⟩

end Expr

end RowQuery
