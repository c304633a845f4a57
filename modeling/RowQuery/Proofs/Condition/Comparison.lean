import Mathlib
import RowQuery.Proofs.Condition.Containment
import RowQuery.Proofs.Value.Order

/-! # Comparison operators

Whatever two numbers are compared for, their order decides
(`RowQuery.Value.compare_of_ofValues?`), so that the six operators fit together. Any other values
are only tested for equality, which is symmetric. Hence a comparison may be read from either side
(`RowQuery.Value.compareOperands_converse_eq_ok_iff`), and the operators obey the laws of an order
in which only a NaN has no place (`RowQuery.Expr.comparisons_coherent`).
-/

namespace RowQuery

open Attempt

namespace ComparisonOp

/-- The operator that asks the same of exchanged operands. -/
def converse : ComparisonOp → ComparisonOp
  | equal => equal
  | notEqual => notEqual
  | greater => less
  | greaterEq => lessEq
  | less => greater
  | lessEq => greaterEq

/-- Whether two numbers in a given order pass a comparison. Without an order they only differ. -/
def accepts (operator : ComparisonOp) (order : Option Ordering) : Bool :=
  match operator with
  | equal => order == some .eq
  | notEqual => !(order == some .eq)
  | greater => order.any (· == .gt)
  | greaterEq => order.any (· != .lt)
  | less => order.any (· == .lt)
  | lessEq => order.any (· != .gt)

/-- The relation in which two numbers stand by their order. -/
def ofOrdering : Ordering → ComparisonOp
  | .lt => less
  | .eq => equal
  | .gt => greater

theorem converse_converse (operator : ComparisonOp) : operator.converse.converse = operator := by
  cases operator <;> rfl

theorem isEquality_converse (operator : ComparisonOp) :
    operator.converse.isEquality = operator.isEquality := by
  cases operator <;> rfl

theorem accepts_converse (operator : ComparisonOp) (order : Option Ordering) :
    operator.converse.accepts (order.map Ordering.swap) = operator.accepts order := by
  rcases order with _ | _ | _ | _ <;> cases operator <;> rfl

theorem accepts_lessEq (order : Option Ordering) :
    lessEq.accepts order = (less.accepts order || equal.accepts order) := by
  rcases order with _ | _ | _ | _ <;> rfl

theorem accepts_greaterEq (order : Option Ordering) :
    greaterEq.accepts order = (greater.accepts order || equal.accepts order) := by
  rcases order with _ | _ | _ | _ <;> rfl

/-- Of being less, equal and greater, numbers are what their order says. -/
theorem accepts_iff_ofOrdering {operator : ComparisonOp} {order : Option Ordering} :
    operator ∈ [less, equal, greater] ∧ operator.accepts order = true ↔
      order.map ofOrdering = some operator := by
  rcases order with _ | _ | _ | _ <;> cases operator <;> decide

end ComparisonOp

/-- Whether a mode finds a property only depends on which items have it. -/
theorem MatchMode.quantifies_congr {α : Type} {mode : MatchMode} {items : List α}
    {first second : α → Prop} (same : ∀ item, first item ↔ second item) :
    mode.Quantifies items first ↔ mode.Quantifies items second := by
  rw [show first = second from funext fun item => propext (same item)]

namespace Value

/-! ### Single comparisons -/

theorem multi_or_single (value : Value) :
    (∃ mode items, value = .multi mode items) ∨ ∀ mode items, value ≠ .multi mode items := by
  cases value with
  | multi mode items => exact .inl ⟨mode, items, rfl⟩
  | _ => exact .inr nofun

theorem promotedEqual_comm (left right : Value) :
    promotedEqual left right = promotedEqual right left := by
  rw [promotedEqual, promotedEqual, NumericPair.ofValues?_swap left right]
  cases NumericPair.ofValues? left right with
  | none => exact Bool.beq_comm
  | some pair =>
      change pair.equal = pair.swap.equal
      rw [NumericPair.equal_eq_beq_order?, NumericPair.equal_eq_beq_order?,
        NumericPair.order?_swap]
      exact (ComparisonOp.accepts_converse .equal pair.order?).symm

/-- An equality is decided by promotion, also where null is involved. -/
theorem equal_eq_ok_iff {left right : Value} {decision : Bool} :
    equal left right = .ok decision ↔
      (left = .null ∨ right = .null ∨ Fits left right) ∧
        decision = promotedEqual left right := by
  rw [← succeeds_equal_iff]
  constructor
  · intro decided
    refine ⟨⟨decision, decided⟩, ?_⟩
    rw [Bool.eq_iff_iff, ← equal_eq_ok_true_iff ⟨decision, decided⟩, decided, Except.ok.injEq]
  · intro both
    obtain ⟨⟨found, decided⟩, rfl⟩ := both
    rw [decided, Except.ok.injEq, Bool.eq_iff_iff, ← equal_eq_ok_true_iff ⟨found, decided⟩, decided,
      Except.ok.injEq]

/-- A comparison of numbers only depends on their order. -/
theorem compare_of_ofValues? {left right : Value} {pair : NumericPair}
    (promoted : NumericPair.ofValues? left right = some pair) (operator : ComparisonOp) :
    compare left operator right = .ok (operator.accepts pair.order?) := by
  have ordered (operator : ComparisonOp) : order left operator right = .ok pair.order? := by
    rw [order, promoted]
  have equals : equal left right = .ok (pair.order? == some .eq) := by
    refine equal_eq_ok_iff.mpr ⟨.inr (.inr (.of_numbers (promoted ▸ rfl))), ?_⟩
    rw [promotedEqual, promoted, ← NumericPair.equal_eq_beq_order?]
  cases operator with
  | equal => exact equals
  | notEqual => rw [compare, equals]; rfl
  | _ => rw [compare, ordered]; rfl

theorem equal_comm_eq_ok_iff {left right : Value} {decision : Bool} :
    equal left right = .ok decision ↔ equal right left = .ok decision := by
  rw [equal_eq_ok_iff, equal_eq_ok_iff, promotedEqual_comm, fits_comm, or_left_comm]

/-- An order is asked of numbers only. -/
theorem succeeds_compare_order_iff {left right : Value} {operator : ComparisonOp}
    (ordering : operator.isEquality = false) :
    Succeeds (compare left operator right) ↔ left.isNumeric ∧ right.isNumeric := by
  rw [succeeds_compare_iff, ordering, if_neg Bool.false_ne_true,
    NumericPair.isSome_ofValues?_iff]

theorem compare_ne_ok_of_ofValues?_eq_none {left right : Value} {operator : ComparisonOp}
    (unpromoted : NumericPair.ofValues? left right = none) (ordering : operator.isEquality = false)
    (decision : Bool) : compare left operator right ≠ .ok decision := by
  intro decided
  have numbers := (succeeds_compare_order_iff ordering).mp ⟨decision, decided⟩
  rw [← NumericPair.isSome_ofValues?_iff, unpromoted] at numbers
  exact Bool.false_ne_true numbers

/-- A single comparison may be read from either side. -/
theorem compare_converse_eq_ok_iff {left right : Value} {operator : ComparisonOp}
    {decision : Bool} :
    compare left operator right = .ok decision ↔
      compare right operator.converse left = .ok decision := by
  have turned := NumericPair.ofValues?_swap left right
  cases promoted : NumericPair.ofValues? left right with
  | some pair =>
      rw [promoted, Option.map_some] at turned
      rw [compare_of_ofValues? promoted, compare_of_ofValues? turned, NumericPair.order?_swap,
        ComparisonOp.accepts_converse]
  | none =>
      rw [promoted, Option.map_none] at turned
      cases operator with
      | equal => exact equal_comm_eq_ok_iff
      | notEqual =>
          have equal_iff (found : Bool) :
              equal left right = .ok found ↔ equal right left = .ok found := equal_comm_eq_ok_iff
          simp only [compare, ComparisonOp.converse, map_eq_ok_iff, equal_iff]
      | _ =>
          exact iff_of_false (compare_ne_ok_of_ofValues?_eq_none promoted rfl decision)
            (compare_ne_ok_of_ofValues?_eq_none turned rfl decision)

/-! ### Comparisons of operands -/

/-- A comparison of a multi value may be read from either side. -/
theorem compareOperands_multi_converse_eq_ok_iff {mode : MatchMode} {items : List Value}
    {operator : ComparisonOp} {other : Value} {decision : Bool}
    (single : ∀ mode items, other ≠ .multi mode items) :
    compareOperands (.multi mode items) operator other = .ok decision ↔
      compareOperands other operator.converse (.multi mode items) = .ok decision := by
  have turned (item : Value) (decision : Bool) : compare item operator other = .ok decision ↔
      compare other operator.converse item = .ok decision := compare_converse_eq_ok_iff
  rw [compareOperands_multi_left_eq_ok_iff single, compareOperands_multi_right_eq_ok_iff single,
    operator.isEquality_converse, MatchMode.quantifies_congr fun item => turned item true]
  simp only [Succeeds, turned, and_comm]

/-- A comparison may be read from either side. -/
theorem compareOperands_converse_eq_ok_iff {left right : Value} {operator : ComparisonOp}
    {decision : Bool} :
    compareOperands left operator right = .ok decision ↔
      compareOperands right operator.converse left = .ok decision := by
  obtain ⟨leftMode, leftItems, rfl⟩ | leftSingle := left.multi_or_single <;>
    obtain ⟨rightMode, rightItems, rfl⟩ | rightSingle := right.multi_or_single
  · exact iff_of_false nofun nofun
  · exact compareOperands_multi_converse_eq_ok_iff rightSingle
  · have turned : compareOperands (.multi rightMode rightItems) operator.converse left =
          .ok decision ↔
        compareOperands left operator.converse.converse (.multi rightMode rightItems) =
          .ok decision := compareOperands_multi_converse_eq_ok_iff leftSingle
    rw [operator.converse_converse] at turned
    exact turned.symm
  · rw [compareOperands_single leftSingle rightSingle,
      compareOperands_single rightSingle leftSingle]
    exact compare_converse_eq_ok_iff

/-! ### The laws of an order -/

section Ordered

variable {left right : Value} {pair : NumericPair}

theorem compare_eq_ok_true_iff (promoted : NumericPair.ofValues? left right = some pair)
    (operator : ComparisonOp) :
    compare left operator right = .ok true ↔ operator.accepts pair.order? = true := by
  rw [compare_of_ofValues? promoted, Except.ok.injEq]

/-- Of being less, equal and greater, at most one holds of two values. -/
theorem eq_of_compare {first second : ComparisonOp}
    (firstHolds : first ∈ [ComparisonOp.less, .equal, .greater] ∧
      compare left first right = .ok true)
    (secondHolds : second ∈ [ComparisonOp.less, .equal, .greater] ∧
      compare left second right = .ok true) : first = second := by
  cases promoted : NumericPair.ofValues? left right with
  | some pair =>
      rw [compare_eq_ok_true_iff promoted,
        ComparisonOp.accepts_iff_ofOrdering] at firstHolds secondHolds
      exact Option.some.inj (firstHolds.symm.trans secondHolds)
  | none =>
      -- Without numbers there is no order, and only the equality can hold.
      have equality {operator : ComparisonOp}
          (holds : operator ∈ [ComparisonOp.less, .equal, .greater] ∧
            compare left operator right = .ok true) : operator = .equal := by
        cases operator with
        | equal => rfl
        | notEqual => exact absurd holds.1 (by decide)
        | _ => exact absurd holds.2 (compare_ne_ok_of_ofValues?_eq_none promoted rfl true)
      exact (equality firstHolds).trans (equality secondHolds).symm

/-- Of being less, equal and greater, exactly one holds of two numbers unless there is a NaN among
them. -/
theorem existsUnique_compare_iff (promoted : NumericPair.ofValues? left right = some pair) :
    (∃! operator, operator ∈ [ComparisonOp.less, .equal, .greater] ∧
      compare left operator right = .ok true) ↔ ¬ pair.HasNaN := by
  rw [← NumericPair.order?_eq_none_iff]
  simp only [compare_eq_ok_true_iff promoted, ComparisonOp.accepts_iff_ofOrdering]
  cases pair.order? with
  | none => exact iff_of_false (fun unique => nomatch unique.exists) (fun differs => differs rfl)
  | some order =>
      refine iff_of_true ⟨.ofOrdering order, rfl, fun other same => ?_⟩ nofun
      exact Option.some.inj same.symm

end Ordered

/-- A test for inequality inverts the test for equality. -/
theorem compare_notEqual_eq_ok_iff {left right : Value} {decision : Bool} :
    compare left .notEqual right = .ok decision ↔ compare left .equal right = .ok (!decision) := by
  have opened : compare left .notEqual right = (compare left .equal right).map (!·) := rfl
  rw [opened, map_eq_ok_iff]
  constructor
  · rintro ⟨found, equals, rfl⟩
    rw [Bool.not_not]
    exact equals
  · intro equals
    exact ⟨!decision, equals, Bool.not_not decision⟩

end Value

namespace Expr

theorem holds_comparison_eq_ok_iff {config : Config} {row : Node} {left right : Expr}
    {operator : ComparisonOp} {decision : Bool} :
    (comparison left operator right).holds config row = .ok decision ↔
      ∃ first second, left.value config row = .ok first ∧ right.value config row = .ok second ∧
        first.compareOperands operator second = .ok decision := by
  simp only [holds, bind_eq_ok_iff, exists_and_left]

/-- **The comparison operators fit together.** A comparison of operands, multi values among them,
may be read from either side. Two values differ exactly where they are found not to be equal, and of
less, equal and greater at most one holds. Orders are decided for numbers and nothing else; there a
weak order is the strict one or equality, and exactly one of less, equal and greater holds unless a
NaN is among the promoted numbers. -/
theorem comparisons_coherent :
    (∀ (config : Config) (row : Node) (left right : Expr) (operator : ComparisonOp)
        (decision : Bool),
      (comparison left operator right).holds config row = .ok decision ↔
        (comparison right operator.converse left).holds config row = .ok decision) ∧
    ∀ left right : Value,
      (∀ decision, left.compare .notEqual right = .ok decision ↔
        left.compare .equal right = .ok (!decision)) ∧
      (∀ operator : ComparisonOp, operator.isEquality = false →
        (Succeeds (left.compare operator right) ↔ left.isNumeric ∧ right.isNumeric)) ∧
      (∀ first second,
        first ∈ [ComparisonOp.less, .equal, .greater] ∧ left.compare first right = .ok true →
        second ∈ [ComparisonOp.less, .equal, .greater] ∧ left.compare second right = .ok true →
        first = second) ∧
      ∀ pair, NumericPair.ofValues? left right = some pair →
        (left.compare .lessEq right = .ok true ↔
          left.compare .less right = .ok true ∨ left.compare .equal right = .ok true) ∧
        (left.compare .greaterEq right = .ok true ↔
          left.compare .greater right = .ok true ∨ left.compare .equal right = .ok true) ∧
        ((∃! operator, operator ∈ [ComparisonOp.less, .equal, .greater] ∧
          left.compare operator right = .ok true) ↔ ¬ pair.HasNaN) := by
  constructor
  · intro config row left right operator decision
    rw [holds_comparison_eq_ok_iff, holds_comparison_eq_ok_iff]
    constructor
    · rintro ⟨first, second, firstValue, secondValue, compared⟩
      exact ⟨second, first, secondValue, firstValue,
        Value.compareOperands_converse_eq_ok_iff.mp compared⟩
    · rintro ⟨second, first, secondValue, firstValue, compared⟩
      exact ⟨first, second, firstValue, secondValue,
        Value.compareOperands_converse_eq_ok_iff.mpr compared⟩
  · intro left right
    refine ⟨fun decision => Value.compare_notEqual_eq_ok_iff,
      fun operator => Value.succeeds_compare_order_iff, fun first second => Value.eq_of_compare,
      fun pair promoted => ⟨?_, ?_, Value.existsUnique_compare_iff promoted⟩⟩
    · simp only [Value.compare_eq_ok_true_iff promoted, ComparisonOp.accepts_lessEq,
        Bool.or_eq_true]
    · simp only [Value.compare_eq_ok_true_iff promoted, ComparisonOp.accepts_greaterEq,
        Bool.or_eq_true]

/-- The number 2 is at most 2.0, being equal to it, while a NaN is promoted and compared with 2 but
neither less, nor equal, nor greater. -/
theorem two_beside_float_and_nan :
    NumericPair.ofValues? (.integer 2) (.float 2) = some (.floats (widen 2) 2) ∧
    (Value.integer 2).compare .equal (.float 2) = .ok true ∧
    (Value.integer 2).compare .lessEq (.float 2) = .ok true ∧
    NumericPair.ofValues? (.integer 2) (.float .nan) = some (.floats (widen 2) .nan) ∧
    ¬ ∃! operator, operator ∈ [ComparisonOp.less, .equal, .greater] ∧
      (Value.integer 2).compare operator (.float .nan) = .ok true := by
  obtain ⟨-, laws⟩ := comparisons_coherent
  have same : (Value.integer 2).compare .equal (.float 2) = .ok true := rfl
  refine ⟨rfl, same, ?_, rfl, fun unique => ?_⟩
  · exact ((laws (.integer 2) (.float 2)).2.2.2 _ rfl).1.mpr (.inr same)
  · exact ((laws (.integer 2) (.float .nan)).2.2.2 _ rfl).2.2.mp unique (.inr rfl)

end Expr

end RowQuery
