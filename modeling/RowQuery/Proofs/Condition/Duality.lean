import Mathlib
import RowQuery.Proofs.Condition.Comparison
import RowQuery.Proofs.Decimal.Finite

/-! # Duality of the match modes

That a comparison does not hold for any of several values means that its complement holds for all of
them, and the other way round. So negating a comparison exchanges the match modes and complements
the operator, also where it fails (`RowQuery.Expr.holds_not_matching`): the failures are those of
the same value, and name another operator at most. Only orders involving a NaN have no complement,
and no value of a document is one (`RowQuery.Value.ofNode_ne_nan`).
-/

namespace RowQuery

/-- Failures of one kind: they differ in the operator that they name, if at all. -/
inductive QueryError.Akin : QueryError → QueryError → Prop where
  | same (failure : QueryError) : Akin failure failure
  | typeMismatch (left : Value) (first second : String) (right : Value) :
      Akin (.typeMismatch left first right) (.typeMismatch left second right)
  | unsupportedType (kind : Kind) (first second : String) :
      Akin (.unsupportedType kind first) (.unsupportedType kind second)

namespace Attempt

/-- Attempts that give related values, or fail in one kind. -/
inductive Alike {α β : Type} (related : α → β → Prop) :
    Except QueryError α → Except QueryError β → Prop where
  | ok {value : α} {other : β} : related value other → Alike related (.ok value) (.ok other)
  | error {first second : QueryError} :
      first.Akin second → Alike related (.error first) (.error second)

section Alike

variable {α β γ δ : Type} {related : α → β → Prop}

theorem Alike.refl (attempt : Except QueryError α) : Alike (· = ·) attempt attempt := by
  cases attempt with
  | ok value => exact .ok rfl
  | error failure => exact .error (.same failure)

/-- What follows alike attempts is alike if it is so for the values that they give. -/
theorem Alike.bind {result : γ → δ → Prop} {attempt : Except QueryError α}
    {other : Except QueryError β} {next : α → Except QueryError γ} {after : β → Except QueryError δ}
    (alike : Alike related attempt other)
    (follows : ∀ value found, attempt = .ok value → other = .ok found → related value found →
      Alike result (next value) (after found)) :
    Alike result (attempt >>= next) (other >>= after) := by
  cases alike with
  | ok both => exact follows _ _ rfl rfl both
  | error akin => exact .error akin

theorem Alike.mono {wider : α → β → Prop} {attempt : Except QueryError α}
    {other : Except QueryError β} (alike : Alike related attempt other)
    (widens : ∀ value found, related value found → wider value found) :
    Alike wider attempt other := by
  cases alike with
  | ok both => exact .ok (widens _ _ both)
  | error akin => exact .error akin

/-- Checks of several items are alike if the single checks are. -/
theorem Alike.forM {check other : γ → Except QueryError Unit} {items : List γ}
    (each : ∀ item ∈ items, Alike (· = ·) (check item) (other item)) :
    Alike (· = ·) (items.forM check) (items.forM other) := by
  induction items with
  | nil => exact .ok rfl
  | cons item rest ih =>
      obtain ⟨here, later⟩ := List.forall_mem_cons.mp each
      exact here.bind fun _ _ _ _ _ => ih later

/-- Traversals are alike if their single attempts are. -/
theorem Alike.mapM {attempt : γ → Except QueryError α} {other : γ → Except QueryError β}
    {items : List γ} (each : ∀ item ∈ items, Alike related (attempt item) (other item)) :
    Alike (List.Forall₂ related) (items.mapM attempt) (items.mapM other) := by
  induction items with
  | nil => exact .ok .nil
  | cons item rest ih =>
      obtain ⟨here, later⟩ := List.forall_mem_cons.mp each
      rw [List.mapM_cons, List.mapM_cons]
      exact here.bind fun _ _ _ _ first => (ih later).bind fun _ _ _ _ others =>
        .ok (.cons first others)

end Alike

end Attempt

open Attempt

/-! ### Complements -/

/-- The mode that asks the opposite of the opposite property. -/
def MatchMode.dual : MatchMode → MatchMode
  | matchAny => matchAll
  | matchAll => matchAny

/-- The operator that asks the opposite of ordered values. -/
def ComparisonOp.complement : ComparisonOp → ComparisonOp
  | equal => notEqual
  | notEqual => equal
  | greater => lessEq
  | greaterEq => less
  | less => greaterEq
  | lessEq => greater

theorem MatchMode.combine_dual (mode : MatchMode) (outcomes : List Bool) :
    mode.dual.combine (outcomes.map (!·)) = !mode.combine outcomes := by
  cases mode with
  | matchAny =>
      simp only [dual, combine, List.all_map, List.not_any_eq_all_not, Function.comp_def, id]
  | matchAll =>
      simp only [dual, combine, List.any_map, List.not_all_eq_any_not, Function.comp_def, id]

/-- The complement of an equality is its negation, and that of an order is if there is one. -/
theorem ComparisonOp.accepts_complement {operator : ComparisonOp} {order : Option Ordering}
    (complete : operator.isEquality = true ∨ order ≠ none) :
    operator.complement.accepts order = !operator.accepts order := by
  cases order with
  | some order => cases order <;> cases operator <;> rfl
  | none =>
      have equality := complete.resolve_right fun ordered => ordered rfl
      cases operator with
      | equal | notEqual => rfl
      | _ => exact absurd equality Bool.false_ne_true

namespace Value

theorem ofNumber_ne_nan (number : Number) : ofNumber number ≠ .float .nan := by
  unfold ofNumber
  split
  · exact nofun
  · next fractional =>
      intro isNaN
      have finite := Number.isFinite_toFloat fractional
      rw [Value.float.inj isNaN] at finite
      exact absurd finite (by decide)

theorem infer_ne_float (written : String) (x : Float) : infer written ≠ .float x := by
  unfold infer
  repeat' split
  all_goals exact nofun

/-- No value of a document is a NaN. -/
theorem ofNode_ne_nan (inferTemporal : Bool) (node : Node) :
    ofNode inferTemporal node ≠ .float .nan := by
  cases node with
  | number number => exact ofNumber_ne_nan number
  | text written =>
      rw [ofNode]
      split
      · exact infer_ne_float written .nan
      · exact Value.noConfusion
  | _ => simp only [ofNode, ne_eq, reduceCtorEq, not_false_eq_true]

/-! ### Complementary comparisons -/

/-- Values that have no order are refused alike for every operator. -/
theorem alike_order {left right : Value} (unpromoted : NumericPair.ofValues? left right = none)
    (first second : ComparisonOp) {α β : Type} {related : α → β → Prop}
    (f : Option Ordering → α) (g : Option Ordering → β) :
    Alike related ((order left first right).map f) ((order left second right).map g) := by
  rw [order, order, unpromoted]
  dsimp only
  split
  · exact .error (.unsupportedType _ _ _)
  · split
    · exact .error (.unsupportedType _ _ _)
    · exact .error (.typeMismatch _ _ _ _)

theorem alike_requireMatching (left right : Value) (first second : String) :
    Alike (· = ·) (requireMatching left right first) (requireMatching left right second) := by
  unfold requireMatching
  split
  · exact .error (.typeMismatch _ _ _ _)
  · split
    · exact .ok rfl
    · exact .error (.typeMismatch _ _ _ _)

/-- A comparison and the one with the complement operator fail alike, and their decisions are
opposite, for an order provided that there is no NaN. -/
theorem alike_compare_complement (left right : Value) (operator : ComparisonOp) :
    Alike (fun first second =>
        operator.isEquality = true ∨ left ≠ .float .nan ∧ right ≠ .float .nan → second = !first)
      (compare left operator right) (compare left operator.complement right) := by
  cases promoted : NumericPair.ofValues? left right with
  | some pair =>
      rw [compare_of_ofValues? promoted, compare_of_ofValues? promoted]
      refine .ok fun complete => ComparisonOp.accepts_complement ?_
      refine complete.imp_right fun numbers => ?_
      rw [ne_eq, NumericPair.order?_eq_none_iff, NumericPair.hasNaN_iff_of_ofValues? promoted]
      exact not_or.mpr numbers
  | none =>
      cases operator with
      | equal =>
          change Alike _ (equal left right) ((equal left right).map (!·))
          cases equal left right with
          | ok decision => exact .ok fun _ => rfl
          | error failure => exact .error (.same failure)
      | notEqual =>
          change Alike _ ((equal left right).map (!·)) (equal left right)
          cases equal left right with
          | ok decision => exact .ok fun _ => (Bool.not_not decision).symm
          | error failure => exact .error (.same failure)
      | _ => exact alike_order promoted _ _ _ _

variable {mode : MatchMode} {items : List Value} {operator : ComparisonOp} {other : Value}

/-- Comparisons with several values are opposite if the modes are dual and the single comparisons
are opposite. -/
theorem alike_compareEach_dual {condition : Prop} {decide opposite : Value → Except QueryError Bool}
    (complementary : ComparisonOp)
    (each : ∀ item ∈ items,
      Alike (fun first second => condition → second = !first) (decide item) (opposite item)) :
    Alike (fun first second => condition → second = !first)
      (compareEach mode items operator other decide)
      (compareEach mode.dual items complementary other opposite) := by
  have checked : Alike (· = ·) (items.forM (requireMatching · other operator.symbol))
      (items.forM (requireMatching · other complementary.symbol)) :=
    .forM fun item _ => alike_requireMatching item other _ _
  refine checked.bind fun _ _ _ _ _ => (Alike.mapM each).bind fun outcomes opposites _ _ pairs => ?_
  refine .ok fun holds => ?_
  have opposed : opposites = outcomes.map (!·) := by
    rw [← List.forall₂_eq_eq_eq, List.forall₂_map_right_iff]
    exact (pairs.imp fun _ _ opposes => opposes holds).flip
  rw [opposed, MatchMode.combine_dual]

/-- The opposite of a comparison with a multi value: the dual mode and the complement operator. -/
theorem alike_compareOperands_dual (numbers : ∀ item ∈ items, item ≠ .float .nan) :
    Alike (fun first second => operator.isEquality = true ∨ other ≠ .float .nan → second = !first)
        (compareOperands (.multi mode items) operator other)
        (compareOperands (.multi mode.dual items) operator.complement other) ∧
      Alike (fun first second => operator.isEquality = true ∨ other ≠ .float .nan → second = !first)
        (compareOperands other operator (.multi mode items))
        (compareOperands other operator.complement (.multi mode.dual items)) := by
  obtain ⟨otherMode, others, rfl⟩ | single := other.multi_or_single
  · exact ⟨.error (.same _), .error (.same _)⟩
  · rw [compareOperands_multi_left single, compareOperands_multi_left single,
      compareOperands_multi_right single, compareOperands_multi_right single]
    constructor
    · refine alike_compareEach_dual _ fun item member => ?_
      refine (alike_compare_complement item other operator).mono fun _ _ opposes complete => ?_
      exact opposes (complete.imp_right fun number => ⟨numbers item member, number⟩)
    · refine alike_compareEach_dual _ fun item member => ?_
      refine (alike_compare_complement other item operator).mono fun _ _ opposes complete => ?_
      exact opposes (complete.imp_right fun number => ⟨number, numbers item member⟩)

end Value

namespace Expr

variable {config : Config} {row : Node}

/-- A match function and that of the dual mode find the same values, none of them a NaN. -/
theorem alike_value_matching (mode : MatchMode) (path : String) :
    Alike (fun found other => ∃ items, (∀ item ∈ items, item ≠ Value.float .nan) ∧
        found = .multi mode items ∧ other = .multi mode.dual items)
      ((matching mode path).value config row) ((matching mode.dual path).value config row) := by
  rw [value_matching_eq, value_matching_eq]
  cases (Path.mk path).collect row with
  | error failure => exact .error (.same failure)
  | ok nodes =>
      refine .ok ⟨_, fun item member => ?_, rfl, rfl⟩
      obtain ⟨node, -, rfl⟩ := List.mem_map.mp member
      exact Value.ofNode_ne_nan config.inferTemporal node

/-- Negating a condition makes its decisions agree with opposite ones. -/
theorem alike_holds_not {condition : Prop} {expression : Expr} {attempt : Except QueryError Bool}
    (opposite : Alike (fun first second => condition → second = !first)
      (expression.holds config row) attempt) :
    Alike (fun first second => condition → first = second)
      ((Expr.not expression).holds config row) attempt := by
  rw [holds]
  generalize expression.holds config row = found at opposite ⊢
  cases opposite with
  | ok opposes => exact .ok fun given => (opposes given).symm
  | error akin => exact .error akin

/-- **The match modes are dual.** Negating a comparison with a multi value is the same as exchanging
its mode and complementing its operator, on either side: both are decided on the same rows, with the
same decision, and elsewhere fail in one kind. Only for an order the decisions may differ, if the
other operand is a NaN. -/
theorem holds_not_matching (config : Config) (row : Node) (mode : MatchMode) (path : String)
    (operator : ComparisonOp) (operand : Expr) :
    let complete := operator.isEquality = true ∨ operand.value config row ≠ .ok (.float .nan)
    Alike (fun first second => complete → first = second)
      ((Expr.not (comparison (matching mode path) operator operand)).holds config row)
      ((comparison (matching mode.dual path) operator.complement operand).holds config row) ∧
    Alike (fun first second => complete → first = second)
      ((Expr.not (comparison operand operator (matching mode path))).holds config row)
      ((comparison operand operator.complement (matching mode.dual path)).holds config row) := by
  intro complete
  have number {other : Value} (resolved : operand.value config row = .ok other) :
      complete → operator.isEquality = true ∨ other ≠ .float .nan := by
    intro holds
    refine holds.imp_right fun differs isNaN => differs ?_
    rw [resolved, isNaN]
  have gathered : Alike _ ((matching mode path).value config row)
      ((matching mode.dual path).value config row) := alike_value_matching mode path
  have resolved := Alike.refl (operand.value config row)
  constructor
  · refine alike_holds_not (gathered.bind fun found dual _ _ same => resolved.bind ?_)
    rintro other _ valued - rfl
    obtain ⟨items, numbers, rfl, rfl⟩ := same
    refine (Value.alike_compareOperands_dual numbers).1.mono fun _ _ opposes holds => ?_
    exact opposes (number valued holds)
  · refine alike_holds_not (resolved.bind ?_)
    rintro other _ valued - rfl
    refine gathered.bind fun found dual _ _ same => ?_
    obtain ⟨items, numbers, rfl, rfl⟩ := same
    refine (Value.alike_compareOperands_dual numbers).2.mono fun _ _ opposes holds => ?_
    exact opposes (number valued holds)

/-- Some of the numbers 1 and 5 is less than 2.0, so not all are at least 2.0. -/
theorem some_less_than_two :
    let row := Node.object [("a", .array [.number (.ofInt64 1), .number (.ofInt64 5)])]
    let two := literal (.float 2)
    two.value {} row ≠ .ok (.float .nan) ∧
    (Expr.not (comparison (matching .matchAny "a") .less two)).holds {} row = .ok false ∧
    (comparison (matching .matchAll "a") .greaterEq two).holds {} row = .ok false := by
  intro row two
  have number : two.value {} row ≠ .ok (.float .nan) := by
    intro isNaN
    exact absurd (Value.float.inj (Except.ok.inj isNaN)) (by decide)
  have refuted : (Expr.not (comparison (matching .matchAny "a") .less two)).holds {} row =
      .ok false := rfl
  have dual : Alike _ (.ok false)
      ((comparison (matching .matchAll "a") .greaterEq two).holds {} row) :=
    refuted ▸ (holds_not_matching {} row .matchAny "a" .less two).1
  refine ⟨number, refuted, ?_⟩
  generalize (comparison (matching .matchAll "a") .greaterEq two).holds {} row = found at dual ⊢
  cases dual with
  | ok agree => rw [← agree (.inr number)]

/-- Nothing is less than a NaN, and nothing is at least one. -/
example :
    let row := Node.object [("a", .array [.number (.ofInt64 1)])]
    let nan := arithmetic (literal (.float 0)) .divide (literal (.float 0))
    (Expr.not (comparison (matching .matchAny "a") .less nan)).holds {} row = .ok true ∧
    (comparison (matching .matchAll "a") .greaterEq nan).holds {} row = .ok false :=
  ⟨rfl, rfl⟩

end Expr

end RowQuery
