import RowQuery.Condition.Basic
import RowQuery.Proofs.Condition.Membership
import RowQuery.Proofs.Condition.Operand

/-! # The supported fragment

Every construct of the query language can be written anywhere, but only some can be evaluated in
each place: `RowQuery.Expr.Operand`, `RowQuery.Expr.Side` and `RowQuery.Expr.Condition` are the
grammars of the operands, of the sides of a membership test and of the conditions that can be. A
condition outside of the grammar fails on every row, and a condition of the grammar is refused on no
row (`RowQuery.Expr.holds_fragment`).
-/

namespace RowQuery

open Attempt

/-- Whether a failure refuses a construct or the arguments of a function. -/
def QueryError.refuses : QueryError → Bool
  | .unsupportedExpression _ => true
  | .invalidFunctionArgument _ => true
  | _ => false

/-- Whether an attempt that fails does so for another reason than a refusal. -/
abbrev Unrefused {α : Type} (attempt : Except QueryError α) : Prop :=
  FailsOnly (·.refuses = false) attempt

namespace Expr

/-- The operands that are evaluated. -/
inductive Operand : Expr → Prop where
  | literal (value : Literal) : Operand (.literal value)
  | column (name : String) : Operand (.column name)
  /-- A match function takes one column. -/
  | function (mode : MatchMode) (path : String) : Operand (matching mode path)
  | parenthesis {operand : Expr} : Operand operand → Operand (.parenthesis operand)
  /-- Every arithmetic operator but the remainder is evaluated. -/
  | arithmetic {left right : Expr} {operator : ArithmeticOp} :
      operator ∈ [ArithmeticOp.add, .subtract, .multiply, .divide] →
      Operand left → Operand right → Operand (.arithmetic left operator right)

/-- The sides of a membership test that are evaluated. -/
inductive Side : Expr → Prop where
  | list {items : List Expr} : (∀ item ∈ items, Operand item) → Side (.list items)
  | operand {operand : Expr} : Operand operand → Side operand

/-- The conditions that are evaluated. -/
inductive Condition : Expr → Prop where
  | logical {left right : Expr} (operator : LogicalOp) :
      Condition left → Condition right → Condition (.logical left operator right)
  | not {condition : Expr} : Condition condition → Condition (.not condition)
  | parenthesis {condition : Expr} : Condition condition → Condition (.parenthesis condition)
  | comparison {left right : Expr} (operator : ComparisonOp) :
      Operand left → Operand right → Condition (.comparison left operator right)
  | between {field low high : Expr} (negated : Bool) :
      Operand field → Operand low → Operand high → Condition (.between field low high negated)
  | member {left right : Expr} (negated : Bool) :
      Side left → Side right → Condition (.member left right negated)

end Expr

/-! ### Values are never refused -/

namespace Value

theorem requireMatching_unrefused (left right : Value) (operator : String) :
    Unrefused (requireMatching left right operator) := by
  unfold requireMatching
  split
  · exact failsOnly_error rfl
  · split
    · exact failsOnly_ok ()
    · exact failsOnly_error rfl

theorem equal_unrefused (left right : Value) : Unrefused (equal left right) := by
  unfold equal
  split
  · exact failsOnly_ok _
  · exact (requireMatching_unrefused left right _).bind fun _ => failsOnly_ok _

theorem order_unrefused (left : Value) (operator : ComparisonOp) (right : Value) :
    Unrefused (order left operator right) := by
  unfold order
  split
  · exact failsOnly_ok _
  · split
    · exact failsOnly_error rfl
    · split
      · exact failsOnly_error rfl
      · exact failsOnly_error rfl

theorem compare_unrefused (left : Value) (operator : ComparisonOp) (right : Value) :
    Unrefused (compare left operator right) := by
  cases operator with
  | equal => exact equal_unrefused left right
  | notEqual => exact (equal_unrefused left right).map _
  | _ => exact (order_unrefused left _ right).map _

theorem compareEach_unrefused (mode : MatchMode) (items : List Value) (operator : ComparisonOp)
    (other : Value) {decide : Value → Except QueryError Bool}
    (decided : ∀ item, Unrefused (decide item)) :
    Unrefused (compareEach mode items operator other decide) := by
  refine (failsOnly_forM fun item _ => requireMatching_unrefused item other _).bind fun _ => ?_
  exact (failsOnly_mapM fun item _ => decided item).bind fun _ => failsOnly_ok _

theorem compareOperands_unrefused (left : Value) (operator : ComparisonOp) (right : Value) :
    Unrefused (compareOperands left operator right) := by
  unfold compareOperands
  split
  · exact failsOnly_error rfl
  · exact compareEach_unrefused _ _ _ _ fun item => compare_unrefused item _ _
  · exact compareEach_unrefused _ _ _ _ fun item => compare_unrefused _ _ item
  · exact compare_unrefused _ _ _

theorem requireRange_unrefused (low high item : Value) :
    Unrefused (requireRange low high item) := by
  unfold requireRange
  split
  · exact (requireMatching_unrefused _ _ _).bind fun _ => requireMatching_unrefused _ _ _
  · exact failsOnly_error rfl

theorem inRange_unrefused (field low high : Value) : Unrefused (inRange field low high) := by
  unfold inRange
  split
  · exact (failsOnly_forM fun item _ => requireRange_unrefused low high item).bind
      fun _ => failsOnly_ok _
  · exact (requireRange_unrefused low high _).bind fun _ => failsOnly_ok _

theorem requireKind_unrefused (operator : String) (first value : Value) :
    Unrefused (requireKind operator first value) := by
  unfold requireKind
  split
  · exact failsOnly_ok ()
  · exact failsOnly_error rfl

theorem memberOf_unrefused (left right : List Value) : Unrefused (memberOf left right) := by
  unfold memberOf
  split
  · exact failsOnly_ok _
  · exact failsOnly_ok _
  · exact (failsOnly_forM fun item _ => requireKind_unrefused _ _ item).bind fun _ => failsOnly_ok _

/-- Of the arithmetic operators only the remainder is refused. -/
theorem applyOp_unrefused (left right : Value) {operator : ArithmeticOp}
    (evaluated : operator ≠ .modulo) : Unrefused (left.applyOp operator right) := by
  unfold applyOp
  split
  · exact absurd rfl evaluated
  · exact failsOnly_error rfl
  · exact failsOnly_ok _
  · exact failsOnly_ok _
  · exact failsOnly_ok _
  · exact failsOnly_ok _
  · exact failsOnly_ok _
  · exact failsOnly_ok _
  · split
    · exact failsOnly_error rfl
    · exact failsOnly_ok _
  · exact failsOnly_ok _

/-- An operator that gives a value is one of the four that are evaluated. -/
theorem operator_mem_of_applyOp {left right value : Value} {operator : ArithmeticOp}
    (applied : left.applyOp operator right = .ok value) :
    operator ∈ [ArithmeticOp.add, .subtract, .multiply, .divide] := by
  cases operator with
  | modulo => exact absurd applied nofun
  | _ => decide

end Value

variable {config : Config} {row : Node}

/-! ### Operands -/

namespace Expr

/-- Only the operands of the grammar have a value on any row. -/
theorem Operand.of_value {expression : Expr} {value : Value}
    (evaluated : expression.value config row = .ok value) : Operand expression := by
  -- The induction follows the evaluation: whatever is refused by name is in the last case.
  induction expression using Expr.value.induct generalizing value with
  | case1 literal => exact .literal literal
  | case2 name => exact .column name
  | case3 name args =>
      obtain ⟨mode, path, same⟩ := eq_matching_of_multiValue evaluated
      rw [same]
      exact .function mode path
  | case4 expression ih => exact .parenthesis (ih evaluated)
  | case5 left operator right ihLeft ihRight =>
      obtain ⟨first, firstValue, evaluated⟩ := bind_eq_ok_iff.mp evaluated
      obtain ⟨second, secondValue, applied⟩ := bind_eq_ok_iff.mp evaluated
      exact .arithmetic (Value.operator_mem_of_applyOp applied) (ihLeft firstValue)
        (ihRight secondValue)
  | case6 other =>
      rw [Expr.value] at evaluated
      · cases evaluated
      all_goals assumption

/-- No operand of the grammar is refused on any row. -/
theorem Operand.value_unrefused {expression : Expr} (operand : Operand expression)
    (config : Config) (row : Node) : Unrefused (expression.value config row) := by
  induction operand with
  | literal value => exact failsOnly_ok _
  | column name =>
      refine (columnValue_failsOnly config row name).mono ?_
      intro failure missing
      subst missing
      rfl
  | function mode path =>
      rw [value_matching_eq]
      refine ((Path.collect_failsOnly ⟨path⟩ row).mono ?_).map _
      intro failure notFound
      obtain ⟨element, within, rfl⟩ := notFound
      rfl
  | parenthesis _ ih => exact ih
  | arithmetic evaluated _ _ ihLeft ihRight =>
      refine ihLeft.bind fun left => ihRight.bind fun right => Value.applyOp_unrefused left right ?_
      intro modulo
      subst modulo
      exact absurd evaluated (by decide)

/-! ### Sides of a membership test -/

theorem listValues_unrefused {items : List Expr} (operands : ∀ item ∈ items, Operand item) :
    Unrefused (listValues config row items) := by
  cases items with
  | nil => exact failsOnly_ok _
  | cons item rest =>
      obtain ⟨operand, operands⟩ := List.forall_mem_cons.mp operands
      refine (operand.value_unrefused config row).bind fun first => ?_
      rw [restValues_eq_mapM]
      refine (failsOnly_mapM fun other member => ?_).bind fun _ => failsOnly_ok _
      refine ((operands other member).value_unrefused config row).bind fun value => ?_
      exact (Value.requireKind_unrefused listMismatch first value).bind fun _ => failsOnly_ok _

theorem Operand.ne_list {expression : Expr} (operand : Operand expression) (items : List Expr) :
    expression ≠ .list items := by
  intro list
  subst list
  exact absurd operand nofun

theorem Side.of_listValues {items : List Expr} {values : List Value}
    (evaluated : listValues config row items = .ok values) : Side (.list items) := by
  refine .list fun item member => ?_
  have traversed := mapM_value_of_listValues evaluated
  obtain ⟨value, found⟩ := succeeds_mapM_iff.mp ⟨values, traversed⟩ item member
  exact .of_value found

/-- Only the sides of the grammar have candidates on the left, on any row. -/
theorem Side.of_leftCandidates {side : Expr} {values : List Value}
    (evaluated : leftCandidates config row side = .ok values) : Side side := by
  by_cases list : ∃ items, side = .list items
  · obtain ⟨items, rfl⟩ := list
    exact .of_listValues evaluated
  · rw [leftCandidates_of_ne_list (not_exists.mp list)] at evaluated
    obtain ⟨value, found, -⟩ := map_eq_ok_iff.mp evaluated
    exact .operand (.of_value found)

/-- Only the sides of the grammar have candidates on the right, on any row. -/
theorem Side.of_rightCandidates {side : Expr} {values : List Value}
    (evaluated : rightCandidates config row side = .ok values) : Side side := by
  by_cases list : ∃ items, side = .list items
  · obtain ⟨items, rfl⟩ := list
    exact .of_listValues evaluated
  · rw [rightCandidates_of_ne_list (not_exists.mp list)] at evaluated
    obtain ⟨value, found, -⟩ := map_eq_ok_iff.mp evaluated
    exact .operand (.of_value found)

theorem Side.leftCandidates_unrefused {side : Expr} (supported : Side side) (config : Config)
    (row : Node) : Unrefused (leftCandidates config row side) := by
  cases supported with
  | list operands => exact listValues_unrefused operands
  | operand operand =>
      rw [leftCandidates_of_ne_list operand.ne_list]
      exact (operand.value_unrefused config row).map _

theorem Side.rightCandidates_unrefused {side : Expr} (supported : Side side) (config : Config)
    (row : Node) : Unrefused (rightCandidates config row side) := by
  cases supported with
  | list operands => exact listValues_unrefused operands
  | operand operand =>
      rw [rightCandidates_of_ne_list operand.ne_list]
      exact (operand.value_unrefused config row).map _

/-! ### Conditions -/

/-- Only the conditions of the grammar have a decision on any row. -/
theorem Condition.of_holds {expression : Expr} {decision : Bool}
    (decided : expression.holds config row = .ok decision) : Condition expression := by
  -- A decision needs one of every part, so each part is of the grammar by induction.
  induction expression using Expr.holds.induct generalizing decision with
  | case1 left operator right ihLeft ihRight =>
      obtain ⟨first, firstHolds, decided⟩ := bind_eq_ok_iff.mp decided
      obtain ⟨second, secondHolds, -⟩ := bind_eq_ok_iff.mp decided
      exact .logical operator (ihLeft firstHolds) (ihRight secondHolds)
  | case2 expression ih =>
      obtain ⟨inner, decided, -⟩ := bind_eq_ok_iff.mp decided
      exact .not (ih decided)
  | case3 expression ih => exact .parenthesis (ih decided)
  | case4 left operator right =>
      obtain ⟨first, firstValue, decided⟩ := bind_eq_ok_iff.mp decided
      obtain ⟨second, secondValue, -⟩ := bind_eq_ok_iff.mp decided
      exact .comparison operator (.of_value firstValue) (.of_value secondValue)
  | case5 field low high negated =>
      obtain ⟨_, fieldValue, decided⟩ := bind_eq_ok_iff.mp decided
      obtain ⟨_, lowValue, decided⟩ := bind_eq_ok_iff.mp decided
      obtain ⟨_, highValue, -⟩ := bind_eq_ok_iff.mp decided
      exact .between negated (.of_value fieldValue) (.of_value lowValue) (.of_value highValue)
  | case6 left right negated =>
      obtain ⟨_, leftValues, decided⟩ := bind_eq_ok_iff.mp decided
      obtain ⟨_, rightValues, -⟩ := bind_eq_ok_iff.mp decided
      exact .member negated (.of_leftCandidates leftValues) (.of_rightCandidates rightValues)
  | case7 other =>
      rw [Expr.holds] at decided
      · cases decided
      all_goals assumption

/-- No condition of the grammar is refused on any row. -/
theorem Condition.holds_unrefused {expression : Expr} (condition : Condition expression)
    (config : Config) (row : Node) : Unrefused (expression.holds config row) := by
  induction condition with
  | logical operator _ _ ihLeft ihRight =>
      exact ihLeft.bind fun left => ihRight.bind fun right => failsOnly_ok _
  | not _ ih => exact ih.bind fun decision => failsOnly_ok _
  | parenthesis _ ih => exact ih
  | comparison operator left right =>
      exact (left.value_unrefused config row).bind fun first =>
        (right.value_unrefused config row).bind fun second =>
          Value.compareOperands_unrefused first operator second
  | between negated field low high =>
      exact (field.value_unrefused config row).bind fun field =>
        (low.value_unrefused config row).bind fun low =>
          (high.value_unrefused config row).bind fun high =>
            (Value.inRange_unrefused field low high).bind fun _ => failsOnly_ok _
  | member negated left right =>
      refine (left.leftCandidates_unrefused config row).bind fun first =>
        (right.rightCandidates_unrefused config row).bind fun second => ?_
      split
      · exact failsOnly_ok false
      · exact (Value.memberOf_unrefused first second).bind fun _ => failsOnly_ok _

/-- **The fragment that is evaluated.** A condition outside of the grammar fails on every row, under
every configuration; a condition of the grammar fails on no row as an unsupported expression or as a
function with wrong arguments. -/
theorem holds_fragment (expression : Expr) :
    (¬ Condition expression → ∀ config row, Fails (expression.holds config row)) ∧
    (Condition expression → ∀ config row failure,
      expression.holds config row = .error failure → failure.refuses = false) := by
  constructor
  · intro outside config row
    rw [← not_succeeds_iff]
    intro succeeds
    obtain ⟨decision, decided⟩ := succeeds
    exact outside (.of_holds decided)
  · intro condition config row
    exact condition.holds_unrefused config row

end Expr

end RowQuery
