import RowQuery.Condition.Basic
import RowQuery.Proofs.Condition.Membership
import RowQuery.Proofs.Condition.Operand

/-! # Conditions see a row through their columns

A condition never looks at a row but through the columns that occur in it
(`RowQuery.Expr.columns`). If each of these columns reads alike in two settings
(`RowQuery.Expr.ReadsAlike`), then so do the operands, the sides of membership tests and the
conditions over them (`RowQuery.Expr.holds_congr`). The switch that makes absent selected paths fail
is one such change of the setting (`RowQuery.Expr.holds_withStrictness`).
-/

namespace RowQuery

open Attempt

namespace Expr

mutual

/-- The paths of the columns in an expression, at any depth. -/
def columns : Expr → List String
  | .column name => [name]
  | .list items => columnsOfItems items
  | .function _ args => columnsOfItems args
  | .not expression => expression.columns
  | .parenthesis expression => expression.columns
  | .isNull target _ => target.columns
  | .cast expression _ => expression.columns
  | .comparison left _ right => left.columns ++ right.columns
  | .logical left _ right => left.columns ++ right.columns
  | .member left right _ => left.columns ++ right.columns
  | .arithmetic left _ right => left.columns ++ right.columns
  | .like target pattern _ => target.columns ++ pattern.columns
  | .bitwise left _ right => left.columns ++ right.columns
  | .between field low high _ => field.columns ++ low.columns ++ high.columns
  | .caseWhen branches otherwise => columnsOfBranches branches ++ columnsOfOption otherwise
  | .literal _ | .subquery _ | .wildcard | .parameter _ => []

/-- The paths of the columns in several expressions. -/
def columnsOfItems : List Expr → List String
  | [] => []
  | item :: rest => item.columns ++ columnsOfItems rest

/-- The paths of the columns in the branches of a case distinction. -/
def columnsOfBranches : List (Expr × Expr) → List String
  | [] => []
  | (condition, result) :: rest => condition.columns ++ result.columns ++ columnsOfBranches rest

/-- The paths of the columns in an expression that may be left out. -/
def columnsOfOption : Option Expr → List String
  | none => []
  | some expression => expression.columns

end

/-- Whether a path reads alike from two rows under two configurations, as a column and as the
argument of a match function. -/
structure ReadsAlike (config : Config) (row : Node) (other : Config) (otherRow : Node)
    (path : String) : Prop where
  column : (column path).value config row = (column path).value other otherRow
  matching : ∀ mode,
    (matching mode path).value config row = (matching mode path).value other otherRow

end Expr

section Alike

variable {config other : Config} {row otherRow : Node}

/-- A function is either applied as a match function to a path, or refused without a look at the
row. -/
theorem multiValue_congr {name : String} {args : List Expr}
    (alike : ∀ path ∈ Expr.columnsOfItems args, Expr.ReadsAlike config row other otherRow path) :
    multiValue config row name args = multiValue other otherRow name args := by
  cases selected : requireMode name with
  | error failure => rw [multiValue, multiValue, selected]; rfl
  | ok mode =>
      cases accepted : requirePath name args with
      | error failure => rw [multiValue, multiValue, selected, accepted]; rfl
      | ok path =>
          obtain rfl := functionName_of_requireMode selected
          obtain rfl := args_of_requirePath accepted
          exact (alike path.complete (List.mem_singleton.mpr rfl)).matching mode

theorem Expr.value_congr {operand : Expr}
    (alike : ∀ path ∈ operand.columns, ReadsAlike config row other otherRow path) :
    operand.value config row = operand.value other otherRow := by
  fun_induction Expr.value config row operand with
  | case1 => rfl
  | case2 name => exact (alike name (List.mem_singleton.mpr rfl)).column
  | case3 name args => exact multiValue_congr alike
  | case4 expression ih => exact ih alike
  | case5 left operator right ihLeft ihRight =>
      obtain ⟨first, second⟩ := List.forall_mem_append.mp alike
      rw [Expr.value, ihLeft first, ihRight second]
  | case6 other _ _ _ _ _ => rw [Expr.value] <;> assumption

theorem restValues_congr (first : Value) {items : List Expr}
    (alike : ∀ path ∈ Expr.columnsOfItems items, Expr.ReadsAlike config row other otherRow path) :
    restValues config row first items = restValues other otherRow first items := by
  induction items with
  | nil => rfl
  | cons item rest ih =>
      obtain ⟨here, later⟩ := List.forall_mem_append.mp alike
      rw [restValues, restValues, Expr.value_congr here, ih later]

theorem listValues_congr {items : List Expr}
    (alike : ∀ path ∈ Expr.columnsOfItems items, Expr.ReadsAlike config row other otherRow path) :
    listValues config row items = listValues other otherRow items := by
  cases items with
  | nil => rfl
  | cons item rest =>
      obtain ⟨here, later⟩ := List.forall_mem_append.mp alike
      simp only [listValues, Expr.value_congr here, restValues_congr _ later]

theorem leftCandidates_congr {side : Expr}
    (alike : ∀ path ∈ side.columns, Expr.ReadsAlike config row other otherRow path) :
    leftCandidates config row side = leftCandidates other otherRow side := by
  obtain ⟨items, rfl⟩ | single := side.list_or_single
  · exact listValues_congr alike
  · rw [leftCandidates_of_ne_list single, leftCandidates_of_ne_list single, Expr.value_congr alike]

theorem rightCandidates_congr {side : Expr}
    (alike : ∀ path ∈ side.columns, Expr.ReadsAlike config row other otherRow path) :
    rightCandidates config row side = rightCandidates other otherRow side := by
  obtain ⟨items, rfl⟩ | single := side.list_or_single
  · exact listValues_congr alike
  · rw [rightCandidates_of_ne_list single, rightCandidates_of_ne_list single,
      Expr.value_congr alike]

namespace Expr

/-- A condition is decided alike where its columns read alike. -/
theorem holds_congr {condition : Expr}
    (alike : ∀ path ∈ condition.columns, ReadsAlike config row other otherRow path) :
    condition.holds config row = condition.holds other otherRow := by
  fun_induction Expr.holds config row condition with
  | case1 left operator right ihLeft ihRight =>
      obtain ⟨first, second⟩ := List.forall_mem_append.mp alike
      rw [holds, ihLeft first, ihRight second]
  | case2 expression ih => rw [holds, ih alike]
  | case3 expression ih => exact ih alike
  | case4 left operator right =>
      obtain ⟨first, second⟩ := List.forall_mem_append.mp alike
      rw [holds, value_congr first, value_congr second]
  | case5 field low high negated =>
      obtain ⟨others, atHigh⟩ := List.forall_mem_append.mp alike
      obtain ⟨atField, atLow⟩ := List.forall_mem_append.mp others
      rw [holds, value_congr atField, value_congr atLow, value_congr atHigh]
  | case6 left right negated =>
      obtain ⟨first, second⟩ := List.forall_mem_append.mp alike
      rw [holds, membership, membership, leftCandidates_congr first, rightCandidates_congr second]
  | case7 other _ _ _ _ _ _ => rw [holds] <;> assumption

theorem holds_withStrictness (strict : Bool) (condition : Expr) :
    condition.holds { config with strictRows := strict } row = condition.holds config row :=
  holds_congr fun _ _ => ⟨rfl, fun _ => rfl⟩

end Expr

end Alike

end RowQuery
