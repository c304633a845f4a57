import RowQuery.Condition.Basic
import RowQuery.Proofs.Attempts

/-! # Connectives

A condition is a boolean formula over its atoms, the parts that are decided on their own. Every atom
is decided, whatever the others say: a condition fails exactly if one of its atoms fails, its
failure is that of the first such atom from the left, and otherwise its connectives have their
classical meaning (`RowQuery.Expr.holds_atomwise`).
-/

namespace RowQuery.Expr

open Attempt

/-- The atoms of a condition, from left to right: its largest parts that are neither a connective, a
negation nor parentheses. -/
def atoms : Expr → List Expr
  | .logical left _ right => left.atoms ++ right.atoms
  | .not expression => expression.atoms
  | .parenthesis expression => expression.atoms
  | atom => [atom]

/-- The classical formula that a condition makes of its atoms. -/
def Formula (accepted : Expr → Prop) : Expr → Prop
  | .logical left .and right => left.Formula accepted ∧ right.Formula accepted
  | .logical left .or right => left.Formula accepted ∨ right.Formula accepted
  | .not expression => ¬ expression.Formula accepted
  | .parenthesis expression => expression.Formula accepted
  | atom => accepted atom

variable {config : Config} {row : Node}

theorem holds_logical_eq_ok_iff {left right : Expr} {operator : LogicalOp} {decision : Bool} :
    (logical left operator right).holds config row = .ok decision ↔
      ∃ first second, left.holds config row = .ok first ∧ right.holds config row = .ok second ∧
        operator.apply first second = decision := by
  simp only [holds, bind_eq_ok_iff, pure_eq_ok_iff, exists_and_left]

/-- A connective fails as its left side, or else as its right side, whatever the left one says. -/
theorem holds_logical_eq_error_iff {left right : Expr} {operator : LogicalOp}
    {failure : QueryError} :
    (logical left operator right).holds config row = .error failure ↔
      left.holds config row = .error failure ∨
        Succeeds (left.holds config row) ∧ right.holds config row = .error failure := by
  simp only [holds, bind_eq_error_iff, pure_ne_error, and_false, exists_false, or_false, Succeeds,
    exists_and_right]

theorem holds_not_eq_ok_iff {expression : Expr} {decision : Bool} :
    (not expression).holds config row = .ok decision ↔
      expression.holds config row = .ok (!decision) := by
  simp only [holds, bind_eq_ok_iff, pure_eq_ok_iff]
  constructor
  · intro negated
    obtain ⟨found, same, rfl⟩ := negated
    rw [Bool.not_not]
    exact same
  · intro same
    exact ⟨_, same, Bool.not_not decision⟩

theorem holds_not_eq_error_iff {expression : Expr} {failure : QueryError} :
    (not expression).holds config row = .error failure ↔
      expression.holds config row = .error failure := by
  simp only [holds, bind_eq_error_iff, pure_ne_error, and_false, exists_false, or_false]

/-- A condition has a decision as soon as all its atoms have one. -/
theorem succeeds_holds_iff {expression : Expr} :
    Succeeds (expression.holds config row) ↔
      ∀ atom ∈ expression.atoms, Succeeds (atom.holds config row) := by
  fun_induction atoms expression with
  | case1 left operator right ihLeft ihRight =>
      rw [List.forall_mem_append, ← ihLeft, ← ihRight]
      simp only [Succeeds, holds_logical_eq_ok_iff]
      constructor
      · intro decided
        obtain ⟨_, first, second, firstHolds, secondHolds, -⟩ := decided
        exact ⟨⟨first, firstHolds⟩, second, secondHolds⟩
      · intro both
        obtain ⟨⟨first, firstHolds⟩, second, secondHolds⟩ := both
        exact ⟨_, first, second, firstHolds, secondHolds, rfl⟩
  | case2 expression ih =>
      rw [← ih]
      simp only [Succeeds, holds_not_eq_ok_iff]
      constructor
      · intro negated
        obtain ⟨decision, decided⟩ := negated
        exact ⟨_, decided⟩
      · intro succeeds
        obtain ⟨decision, decided⟩ := succeeds
        refine ⟨!decision, ?_⟩
        rw [Bool.not_not]
        exact decided
  | case3 expression ih => exact ih
  | case4 atom _ _ _ => rw [List.forall_mem_singleton]

/-- A condition fails as the first of its atoms that fails. -/
theorem holds_eq_error_iff {expression : Expr} {failure : QueryError} :
    expression.holds config row = .error failure ↔
      FirstFailure (holds config row) expression.atoms failure := by
  fun_induction atoms expression with
  | case1 left operator right ihLeft ihRight =>
      rw [holds_logical_eq_error_iff, firstFailure_append_iff, ihLeft, ihRight, succeeds_holds_iff]
  | case2 expression ih => rw [holds_not_eq_error_iff, ih]
  | case3 expression ih => exact ih
  | case4 atom _ _ _ => exact firstFailure_singleton_iff.symm

/-- A decision is the classical formula over the decisions of the atoms. -/
theorem formula_of_holds {expression : Expr} {decision : Bool}
    (decided : expression.holds config row = .ok decision) :
    decision = true ↔ expression.Formula fun atom => atom.holds config row = .ok true := by
  induction expression using Formula.induct generalizing decision with
  | case1 left right ihLeft ihRight =>
      obtain ⟨first, second, firstHolds, secondHolds, rfl⟩ := holds_logical_eq_ok_iff.mp decided
      rw [Formula, ← ihLeft firstHolds, ← ihRight secondHolds]
      exact Bool.and_eq_true_iff
  | case2 left right ihLeft ihRight =>
      obtain ⟨first, second, firstHolds, secondHolds, rfl⟩ := holds_logical_eq_ok_iff.mp decided
      rw [Formula, ← ihLeft firstHolds, ← ihRight secondHolds]
      exact Bool.or_eq_true_iff
  | case3 expression ih =>
      rw [Formula, ← ih (holds_not_eq_ok_iff.mp decided), Bool.not_eq_true', Bool.not_eq_false]
  | case4 expression ih => exact ih decided
  | case5 atom =>
      rw [Formula, decided, Except.ok.injEq]
      all_goals assumption

/-- **Conditions are decided atom by atom.** A condition fails exactly if one of its atoms fails,
and then with the failure of the first such atom from the left, whatever the other atoms say;
otherwise its decision is the classical formula over the decisions of the atoms. -/
theorem holds_atomwise (config : Config) (row : Node) (expression : Expr) :
    (Fails (expression.holds config row) ↔
      ∃ atom ∈ expression.atoms, Fails (atom.holds config row)) ∧
    (∀ failure, expression.holds config row = .error failure ↔
      FirstFailure (holds config row) expression.atoms failure) ∧
    ((∀ atom ∈ expression.atoms, Succeeds (atom.holds config row)) →
      ∃ decision, expression.holds config row = .ok decision ∧
        (decision = true ↔ expression.Formula fun atom => atom.holds config row = .ok true)) := by
  refine ⟨?_, fun failure => holds_eq_error_iff, fun succeed => ?_⟩
  · rw [← exists_firstFailure_iff]
    exact exists_congr fun failure => holds_eq_error_iff
  · obtain ⟨decision, decided⟩ := succeeds_holds_iff.mpr succeed
    exact ⟨decision, decided, formula_of_holds decided⟩

end RowQuery.Expr
