import RowQuery.Condition.Basic
import RowQuery.Proofs.Condition.Operand

/-! # Comparisons with multi values

A comparison with a multi value is made for each of its values and quantified by its match mode, but
only after every value has been found to fit the other operand. That check is stricter than single
comparisons in one point: it refuses null, which single values may be tested against for equality.
`RowQuery.Expr.holds_matching_comparison` says exactly when such a comparison has a decision and
which one; `RowQuery.Expr.matching_refuses_null` shows the difference.
-/

namespace RowQuery

open Attempt

/-- Whether a mode finds a property among items. -/
def MatchMode.Quantifies {α : Type} (mode : MatchMode) (items : List α) (property : α → Prop) :
    Prop :=
  match mode with
  | .matchAny => ∃ item ∈ items, property item
  | .matchAll => ∀ item ∈ items, property item

/-- The combined outcomes quantify over the items that they were found for. -/
theorem MatchMode.combine_eq_true_iff {α ε : Type} {decide : α → Except ε Bool} {items : List α}
    {outcomes : List Bool}
    (found : List.Forall₂ (fun item outcome => decide item = .ok outcome) items outcomes)
    (mode : MatchMode) :
    mode.combine outcomes = true ↔ mode.Quantifies items fun item => decide item = .ok true := by
  induction found with
  | nil => cases mode <;> simp [combine, Quantifies]
  | @cons item outcome rest outcomes same _ ih =>
      cases mode with
      | matchAny =>
          simp only [combine, Quantifies, List.any_cons, id, Bool.or_eq_true,
            List.exists_mem_cons_iff, same, Except.ok.injEq] at ih ⊢
          rw [ih]
      | matchAll =>
          simp only [combine, Quantifies, List.all_cons, id, Bool.and_eq_true, List.forall_mem_cons,
            same, Except.ok.injEq] at ih ⊢
          rw [ih]

/-- Whether an operator tests for equality; every other one asks for an order. -/
def ComparisonOp.isEquality : ComparisonOp → Bool
  | equal => true
  | notEqual => true
  | _ => false

namespace Value

theorem isNull_eq_true_iff {value : Value} : value.isNull = true ↔ value = .null := by
  cases value <;> simp [isNull]

/-- Whether neither value is null and they have one type after promotion. -/
def Fits (left right : Value) : Prop :=
  left ≠ .null ∧ right ≠ .null ∧
    ((NumericPair.ofValues? left right).isSome ∨ left.kind = right.kind)

theorem Fits.symm {left right : Value} (fits : Fits left right) : Fits right left := by
  obtain ⟨leftPresent, rightPresent, same⟩ := fits
  refine ⟨rightPresent, leftPresent, same.imp ?_ Eq.symm⟩
  cases left <;> cases right <;> exact id

theorem fits_comm {left right : Value} : Fits left right ↔ Fits right left :=
  ⟨Fits.symm, Fits.symm⟩

theorem requireMatching_eq_ok_iff {left right : Value} {operator : String} :
    requireMatching left right operator = .ok () ↔ Fits left right := by
  unfold requireMatching Fits
  split
  · next absent =>
      rw [Bool.or_eq_true, isNull_eq_true_iff, isNull_eq_true_iff] at absent
      simp only [reduceCtorEq, false_iff]
      tauto
  · next present =>
      rw [Bool.or_eq_true, isNull_eq_true_iff, isNull_eq_true_iff, not_or] at present
      rw [ne_eq, ne_eq, and_iff_right present.1, and_iff_right present.2]
      split
      · next fits => simpa using fits
      · next differs => simpa using differs

/-- An equality of single values is decided unless both are there and do not fit together. -/
theorem succeeds_equal_iff {left right : Value} :
    Succeeds (equal left right) ↔ left = .null ∨ right = .null ∨ Fits left right := by
  unfold equal
  split
  · next absent =>
      rw [Bool.or_eq_true, isNull_eq_true_iff, isNull_eq_true_iff] at absent
      simp only [Succeeds, Except.ok.injEq, exists_eq', true_iff]
      tauto
  · next present =>
      rw [Bool.or_eq_true, isNull_eq_true_iff, isNull_eq_true_iff, not_or] at present
      rw [or_iff_right present.1, or_iff_right present.2,
        ← @requireMatching_eq_ok_iff left right ComparisonOp.equal.symbol]
      simp only [Succeeds, bind_eq_ok_iff, pure_eq_ok_iff]
      constructor
      · intro succeeds
        obtain ⟨_, _, fits, _⟩ := succeeds
        exact fits
      · intro fits
        exact ⟨_, (), fits, rfl⟩

theorem succeeds_order_iff {left right : Value} {operator : ComparisonOp} :
    Succeeds (order left operator right) ↔ (NumericPair.ofValues? left right).isSome := by
  unfold order
  split
  · next pair found =>
      rw [found]
      exact ⟨fun _ => rfl, fun _ => ⟨_, rfl⟩⟩
  · next absent =>
      rw [absent, ← not_fails_iff]
      refine ⟨fun succeeds => (succeeds ?_).elim, nofun⟩
      split
      · exact ⟨_, rfl⟩
      · split
        · exact ⟨_, rfl⟩
        · exact ⟨_, rfl⟩

theorem Fits.of_numbers {left right : Value}
    (numbers : (NumericPair.ofValues? left right).isSome) : Fits left right := by
  refine ⟨?_, ?_, .inl numbers⟩
  · intro absent
    subst absent
    exact absurd numbers (by cases right <;> exact nofun)
  · intro absent
    subst absent
    exact absurd numbers (by cases left <;> exact nofun)

/-- A single comparison is decided for numbers, and an equality also for null and for any two values
that fit together. -/
theorem succeeds_compare_iff {left right : Value} {operator : ComparisonOp} :
    Succeeds (compare left operator right) ↔
      if operator.isEquality then left = .null ∨ right = .null ∨ Fits left right
      else (NumericPair.ofValues? left right).isSome := by
  cases operator with
  | equal => exact succeeds_equal_iff
  | notEqual => exact succeeds_map_iff.trans succeeds_equal_iff
  | _ => exact succeeds_map_iff.trans succeeds_order_iff

/-- Where a single comparison is decided, its operands fit together, except that an equality is also
decided for null. -/
theorem fits_iff_of_succeeds_compare {left right : Value} {operator : ComparisonOp}
    (decided : Succeeds (compare left operator right)) :
    Fits left right ↔ (operator.isEquality = true → left ≠ .null ∧ right ≠ .null) := by
  constructor
  · intro fits _
    exact ⟨fits.1, fits.2.1⟩
  · intro present
    rw [succeeds_compare_iff] at decided
    split at decided
    · next equality =>
        obtain ⟨leftPresent, rightPresent⟩ := present equality
        exact (decided.resolve_left leftPresent).resolve_left rightPresent
    · exact .of_numbers decided

/-- The check before a comparison with several values asks no more than the single comparisons,
except that it refuses null also to an equality. -/
theorem forall_fits_iff {items : List Value} {operator : ComparisonOp}
    {left right : Value → Value} :
    (∀ item ∈ items, Fits (left item) (right item) ∧
        Succeeds (compare (left item) operator (right item))) ↔
      (∀ item ∈ items, Succeeds (compare (left item) operator (right item))) ∧
        (operator.isEquality = true → ∀ item ∈ items, left item ≠ .null ∧ right item ≠ .null) := by
  constructor
  · intro fit
    exact ⟨fun item member => (fit item member).2, fun equality item member =>
      (fits_iff_of_succeeds_compare (fit item member).2).mp (fit item member).1 equality⟩
  · intro conditions item member
    obtain ⟨decided, present⟩ := conditions
    exact ⟨(fits_iff_of_succeeds_compare (decided item member)).mpr fun equality =>
      present equality item member, decided item member⟩

/-- A comparison with several values is decided if each of them fits the other operand and has a
decision of its own; the decision is then quantified over the values. -/
theorem compareEach_eq_ok_iff {mode : MatchMode} {items : List Value} {operator : ComparisonOp}
    {other : Value} {decide : Value → Except QueryError Bool} {decision : Bool} :
    compareEach mode items operator other decide = .ok decision ↔
      (∀ item ∈ items, Fits item other ∧ Succeeds (decide item)) ∧
        (decision = true ↔ mode.Quantifies items fun item => decide item = .ok true) := by
  unfold compareEach
  simp only [bind_eq_ok_iff, forM_eq_ok_iff, requireMatching_eq_ok_iff, mapM_eq_ok_iff,
    pure_eq_ok_iff, exists_const]
  constructor
  · intro compared
    obtain ⟨fit, outcomes, found, rfl⟩ := compared
    have decided := succeeds_mapM_iff.mp ⟨outcomes, mapM_eq_ok_iff.mpr found⟩
    exact ⟨fun item member => ⟨fit item member, decided item member⟩,
      MatchMode.combine_eq_true_iff found mode⟩
  · intro conditions
    obtain ⟨fit, decides⟩ := conditions
    obtain ⟨outcomes, found⟩ := succeeds_mapM_iff.mpr fun item member => (fit item member).2
    rw [mapM_eq_ok_iff] at found
    refine ⟨fun item member => (fit item member).1, outcomes, found, ?_⟩
    rw [Bool.eq_iff_iff, MatchMode.combine_eq_true_iff found mode, decides]

variable {mode : MatchMode} {items : List Value} {operator : ComparisonOp} {other : Value}
  {decision : Bool}

theorem compareOperands_multi_left (single : ∀ mode items, other ≠ .multi mode items) :
    compareOperands (.multi mode items) operator other =
      compareEach mode items operator other (compare · operator other) := by
  cases other with
  | multi mode items => exact absurd rfl (single mode items)
  | _ => rfl

theorem compareOperands_multi_right (single : ∀ mode items, other ≠ .multi mode items) :
    compareOperands other operator (.multi mode items) =
      compareEach mode items operator other (compare other operator ·) := by
  cases other with
  | multi mode items => exact absurd rfl (single mode items)
  | _ => rfl

theorem compareOperands_multi_left_eq_ok_iff (single : ∀ mode items, other ≠ .multi mode items) :
    compareOperands (.multi mode items) operator other = .ok decision ↔
      (∀ item ∈ items, Succeeds (compare item operator other)) ∧
        (operator.isEquality = true → ∀ item ∈ items, item ≠ .null ∧ other ≠ .null) ∧
        (decision = true ↔
          mode.Quantifies items fun item => compare item operator other = .ok true) := by
  rw [compareOperands_multi_left single, compareEach_eq_ok_iff, ← and_assoc]
  exact and_congr_left' forall_fits_iff

theorem compareOperands_multi_right_eq_ok_iff (single : ∀ mode items, other ≠ .multi mode items) :
    compareOperands other operator (.multi mode items) = .ok decision ↔
      (∀ item ∈ items, Succeeds (compare other operator item)) ∧
        (operator.isEquality = true → ∀ item ∈ items, other ≠ .null ∧ item ≠ .null) ∧
        (decision = true ↔
          mode.Quantifies items fun item => compare other operator item = .ok true) := by
  -- The check names the item first, whichever side it stands on.
  have turned : (∀ item ∈ items, Fits item other ∧ Succeeds (compare other operator item)) ↔
      ∀ item ∈ items, Fits other item ∧ Succeeds (compare other operator item) :=
    forall₂_congr fun item _ => and_congr_left' fits_comm
  rw [compareOperands_multi_right single, compareEach_eq_ok_iff, ← and_assoc, turned]
  exact and_congr_left' forall_fits_iff

end Value

namespace Expr

variable {config : Config} {row : Node}

/-- A comparison of two operands that have values compares the values. -/
theorem holds_comparison {left right : Expr} {first second : Value} (operator : ComparisonOp)
    (leftValue : left.value config row = .ok first)
    (rightValue : right.value config row = .ok second) :
    (comparison left operator right).holds config row = first.compareOperands operator second := by
  rw [holds, leftValue, rightValue]
  rfl

/-- **Comparisons with multi values.** Let the path of a match function reach `nodes` and the other
operand be a single value. The comparison has a decision exactly if the single comparison has one
for every value and, for equalities, neither a value nor the other operand is null. The decision is
then that of the single comparisons for some or for all of the values, by the mode. The same holds
with the sides exchanged. -/
theorem holds_matching_comparison {mode : MatchMode} {path : String} {nodes : List Node}
    {operator : ComparisonOp} {operand : Expr} {other : Value}
    (collected : (Path.mk path).collect row = .ok nodes)
    (resolved : operand.value config row = .ok other)
    (single : ∀ mode items, other ≠ .multi mode items) (decision : Bool) :
    let items := nodes.map (Value.ofNode config.inferTemporal)
    ((comparison (matching mode path) operator operand).holds config row = .ok decision ↔
      (∀ item ∈ items, Succeeds (item.compare operator other)) ∧
      (operator.isEquality = true → ∀ item ∈ items, item ≠ .null ∧ other ≠ .null) ∧
      (decision = true ↔
        mode.Quantifies items fun item => item.compare operator other = .ok true)) ∧
    ((comparison operand operator (matching mode path)).holds config row = .ok decision ↔
      (∀ item ∈ items, Succeeds (other.compare operator item)) ∧
      (operator.isEquality = true → ∀ item ∈ items, other ≠ .null ∧ item ≠ .null) ∧
      (decision = true ↔
        mode.Quantifies items fun item => other.compare operator item = .ok true)) := by
  intro items
  have gathered : (matching mode path).value config row = .ok (.multi mode items) := by
    rw [value_matching_eq, collected]
    rfl
  constructor
  · rw [holds_comparison operator gathered resolved]
    exact Value.compareOperands_multi_left_eq_ok_iff single
  · rw [holds_comparison operator resolved gathered]
    exact Value.compareOperands_multi_right_eq_ok_iff single

/-- Some of the numbers 1 and 3 are less than 2, but not all of them. -/
theorem matching_less_two :
    let row := Node.object [("a", .array [.number (.ofInt64 1), .number (.ofInt64 3)])]
    (Path.mk "a").collect row = .ok [.number (.ofInt64 1), .number (.ofInt64 3)] ∧
    (literal (.integer 2)).value {} row = .ok (.integer 2) ∧
    (∀ mode items, Value.integer 2 ≠ .multi mode items) ∧
    (comparison (matching .matchAny "a") .less (literal (.integer 2))).holds {} row = .ok true ∧
    (comparison (matching .matchAll "a") .less (literal (.integer 2))).holds {} row =
      .ok false := by
  intro row
  have collected : (Path.mk "a").collect row =
      .ok [.number (.ofInt64 1), .number (.ofInt64 3)] := rfl
  have resolved : (literal (.integer 2)).value {} row = .ok (.integer 2) := rfl
  have one : Value.compare (.integer 1) .less (.integer 2) = .ok true := rfl
  have three : Value.compare (.integer 3) .less (.integer 2) = .ok false := rfl
  have decided : ∀ item ∈ [Value.integer 1, .integer 3],
      Succeeds (item.compare .less (.integer 2)) :=
    List.forall_mem_cons.mpr ⟨⟨_, one⟩, List.forall_mem_singleton.mpr ⟨_, three⟩⟩
  refine ⟨collected, resolved, nofun, ?_, ?_⟩
  · refine (holds_matching_comparison collected resolved nofun true).1.mpr ⟨decided, nofun, ?_⟩
    exact iff_of_true rfl ⟨.integer 1, List.mem_cons_self, one⟩
  · refine (holds_matching_comparison collected resolved nofun false).1.mpr ⟨decided, nofun, ?_⟩
    refine iff_of_false nofun fun all => ?_
    exact absurd (three.symm.trans (all _ (List.mem_cons_of_mem _ List.mem_cons_self))) nofun

/-- A null among the values is refused, although every single comparison has a decision and one of
them holds. -/
theorem matching_refuses_null :
    let row := Node.object [("a", .array [.null, .number (.ofInt64 1)])]
    (Path.mk "a").collect row = .ok [.null, .number (.ofInt64 1)] ∧
    Value.compare .null .equal (.integer 1) = .ok false ∧
    Value.compare (.integer 1) .equal (.integer 1) = .ok true ∧
    (comparison (matching .matchAny "a") .equal (literal (.integer 1))).holds {} row =
      .error (.typeMismatch .null "=" (.integer 1)) :=
  ⟨rfl, rfl, rfl, rfl⟩

end Expr

end RowQuery
