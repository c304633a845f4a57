import RowQuery.Path.Collect
import RowQuery.Path.Resolve
import RowQuery.Proofs.Attempts

/-! # Failures of paths

A path can fail in one way only, by leading nowhere, whether it is resolved
(`RowQuery.Path.resolve_failsOnly`) or collected (`RowQuery.Path.collect_failsOnly`).
-/

namespace RowQuery.Path

open Attempt

/-- Whether a failure reports a path that leads nowhere. -/
def NotFound (failure : QueryError) : Prop :=
  ∃ element within, failure = .elementNotFound element within

/-- The failure picked from the attempts for several items is that of the first one that fails. -/
theorem firstFailure?_map_eq_some {ε α β : Type} {attempt : α → Except ε β} {items : List α}
    {failure : ε} (picked : firstFailure? (items.map attempt) = some failure) :
    FirstFailure attempt items failure := by
  induction items with
  | nil => exact absurd picked nofun
  | cons item rest ih =>
      rw [firstFailure_cons_iff]
      cases outcome : attempt item with
      | ok value =>
          rw [List.map_cons, outcome, firstFailure?] at picked
          exact .inr ⟨⟨value, rfl⟩, ih picked⟩
      | error other =>
          rw [List.map_cons, outcome, firstFailure?, Option.some.injEq] at picked
          exact .inl (congrArg _ picked)

/-- At an array a path is followed from every item that has the next field. -/
theorem walk_array (absence : Absence) (complete segment : String) (rest : List String)
    (items : List Node) :
    walk absence complete (segment :: rest) (.array items) =
      let attempts := (items.filterMap (·.field? segment)).map (walk absence complete rest)
      if (successes attempts).isEmpty && absence = .strict then
        .error ((firstFailure? attempts).getD
          (.elementNotFound (join (segment :: rest)) (some complete)))
      else .ok (.array (successes attempts)) := rfl

/-- At any other node a path is followed into the next field. -/
theorem walk_field (absence : Absence) (complete segment : String) (rest : List String)
    {node : Node} (single : ∀ items, node ≠ .array items) :
    walk absence complete (segment :: rest) node =
      match node.field? segment with
      | some next => walk absence complete rest next
      | none =>
        match absence with
        | .lenient => .ok .null
        | .strict => .error (.elementNotFound complete none) := by
  cases node with
  | array items => exact absurd rfl (single items)
  | _ => rfl

theorem walk_failsOnly (absence : Absence) (complete : String) (segments : List String)
    (node : Node) : FailsOnly NotFound (walk absence complete segments node) := by
  induction segments generalizing node with
  | nil => exact failsOnly_ok node
  | cons segment rest ih =>
      by_cases array : ∃ items, node = .array items
      · obtain ⟨items, rfl⟩ := array
        rw [walk_array]
        dsimp only
        split
        · apply failsOnly_error
          cases picked : firstFailure? ((items.filterMap (·.field? segment)).map
              (walk absence complete rest)) with
          | none => exact ⟨_, _, rfl⟩
          | some failure =>
              obtain ⟨before, item, after, -, -, fails⟩ := firstFailure?_map_eq_some picked
              exact ih item failure fails
        · exact failsOnly_ok _
      · rw [walk_field absence complete segment rest (not_exists.mp array)]
        split
        · exact ih _
        · split
          · exact failsOnly_ok _
          · exact failsOnly_error ⟨_, _, rfl⟩

/-- Resolution fails only where a path leads nowhere. -/
theorem resolve_failsOnly (absence : Absence) (path : Path) (node : Node) :
    FailsOnly NotFound (path.resolve absence node) :=
  walk_failsOnly absence path.complete path.segments node

theorem branch_eq_ok_iff {complete segment : String} {leaf next : Node} :
    branch complete segment leaf = .ok next ↔ leaf.field? segment = some next := by
  unfold branch
  split
  · next found present => rw [present, Except.ok.injEq, Option.some.injEq]
  · next absent => simp only [absent, reduceCtorEq]

theorem branch_failsOnly (complete segment : String) (leaf : Node) :
    FailsOnly NotFound (branch complete segment leaf) := by
  unfold branch
  split
  · exact failsOnly_ok _
  · exact failsOnly_error ⟨_, _, rfl⟩

theorem descend_failsOnly (complete : String) (segments : List String) (node : Node) :
    FailsOnly NotFound (descend complete segments node) := by
  induction segments generalizing node with
  | nil => exact failsOnly_ok _
  | cons segment rest ih =>
      refine (failsOnly_mapM fun leaf _ => ?_).bind fun branches => failsOnly_ok _
      exact (branch_failsOnly complete segment leaf).bind fun next => ih next

/-- Collection fails only where a path leads nowhere. -/
theorem collect_failsOnly (path : Path) (node : Node) : FailsOnly NotFound (path.collect node) :=
  descend_failsOnly path.complete path.segments node

end RowQuery.Path
