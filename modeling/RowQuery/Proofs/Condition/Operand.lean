import RowQuery.Condition.Operand
import RowQuery.Proofs.Path.Failures

/-! # Operands

What the operands of a condition evaluate to. A match function applied to a path gives the multi
value of the nodes that the path reaches (`RowQuery.Expr.value_matching_eq`), and no other function
gives anything (`RowQuery.eq_matching_of_multiValue`). A column fails only as a missing column
(`RowQuery.columnValue_failsOnly`).
-/

namespace RowQuery

open Attempt

variable {config : Config} {row : Node}

theorem requireMode_functionName (mode : MatchMode) :
    requireMode mode.functionName = .ok mode := by
  rw [requireMode, MatchMode.ofFunctionName?_functionName]

/-- A name that selects a mode is the name of the mode's function. -/
theorem functionName_of_requireMode {name : String} {mode : MatchMode}
    (selected : requireMode name = .ok mode) : mode.functionName = name := by
  unfold requireMode MatchMode.ofFunctionName? at selected
  split at selected
  · next found known =>
      obtain rfl := Except.ok.inj selected
      have named := List.find?_some known
      exact of_decide_eq_true named
  · exact absurd selected nofun

/-- Only a single column is accepted as the argument of a match function. -/
theorem args_of_requirePath {name : String} {args : List Expr} {path : Path}
    (accepted : requirePath name args = .ok path) : args = [.column path.complete] := by
  unfold requirePath at accepted
  split at accepted
  · obtain rfl := Except.ok.inj accepted
    rfl
  · exact absurd accepted nofun
  · exact absurd accepted nofun

/-- A function that gives a value is a match function, applied to a path. -/
theorem eq_matching_of_multiValue {name : String} {args : List Expr} {value : Value}
    (evaluated : multiValue config row name args = .ok value) :
    ∃ mode path, Expr.function name args = .matching mode path := by
  obtain ⟨mode, selected, evaluated⟩ := bind_eq_ok_iff.mp evaluated
  obtain ⟨path, accepted, -⟩ := bind_eq_ok_iff.mp evaluated
  obtain rfl := functionName_of_requireMode selected
  obtain rfl := args_of_requirePath accepted
  exact ⟨mode, path.complete, rfl⟩

/-- A match function collects the nodes that its path reaches. -/
theorem Expr.value_matching_eq (mode : MatchMode) (path : String) :
    (matching mode path).value config row = ((Path.mk path).collect row).map fun nodes =>
      .multi mode (nodes.map (Value.ofNode config.inferTemporal)) := by
  rw [matching, value, multiValue, requireMode_functionName]
  cases collected : (Path.mk path).collect row with
  | ok nodes =>
      exact bind_eq_ok_iff.mpr ⟨mode, rfl, bind_eq_ok_iff.mpr ⟨⟨path⟩, rfl,
        bind_eq_ok_iff.mpr ⟨nodes, collected, rfl⟩⟩⟩
  | error failure =>
      exact bind_eq_error_iff.mpr (.inr ⟨mode, rfl, bind_eq_error_iff.mpr (.inr ⟨⟨path⟩, rfl,
        bind_eq_error_iff.mpr (.inl collected)⟩)⟩)

theorem columnValue_eq_ok_iff {name : String} {value : Value} :
    columnValue config row name = .ok value ↔
      ∃ node, (Path.mk name).resolve .strict row = .ok node ∧
        value = .ofNode config.inferTemporal node := by
  unfold columnValue
  split
  · next node resolved => simp only [resolved, Except.ok.injEq, exists_eq_left', eq_comm]
  · next failure fails => simp only [fails, reduceCtorEq, false_and, exists_false]

/-- A column fails only as a missing column. -/
theorem columnValue_failsOnly (config : Config) (row : Node) (name : String) :
    FailsOnly (· = .columnNotFound name) (columnValue config row name) := by
  unfold columnValue
  split
  · exact failsOnly_ok _
  · next failure fails =>
      obtain ⟨element, within, rfl⟩ := Path.resolve_failsOnly .strict ⟨name⟩ row failure fails
      exact failsOnly_error rfl

end RowQuery
