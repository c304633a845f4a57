import RowQuery.Condition.Basic
import RowQuery.Proofs.Attempts

/-! # Candidates of membership tests

What the sides of a membership test give: a list gives the values of its items, which must have one
type (`RowQuery.listValues_eq_ok_iff`), and every other side gives what can be had from its value
(`RowQuery.leftCandidates_of_ne_list`, `RowQuery.rightCandidates_of_ne_list`).
-/

namespace RowQuery

open Attempt

/-- The candidates that a value gives on the right of a membership test. -/
def Value.candidates : Value → List Value
  | .list items => items
  | .multi _ items => items
  | single => [single]

variable {config : Config} {row : Node}

/-- The value of an item of a list whose first value is given. -/
def itemValue (config : Config) (row : Node) (first : Value) (item : Expr) :
    Except QueryError Value := do
  let value ← item.value config row
  Value.requireKind listMismatch first value
  return value

theorem restValues_eq_mapM (first : Value) (items : List Expr) :
    restValues config row first items = items.mapM (itemValue config row first) := by
  induction items with
  | nil => rfl
  | cons item rest ih =>
      simp only [restValues, List.mapM_cons, ih, itemValue, bind_assoc, pure_bind]

theorem Value.requireKind_eq_ok_iff {operator : String} {first value : Value} {done : Unit} :
    requireKind operator first value = .ok done ↔ value.kind = first.kind := by
  unfold requireKind
  split
  · next same => exact iff_of_true rfl same
  · next differs => exact iff_of_false nofun differs

/-- The items after the first have values if the operands do and these have the type of the first
value. -/
theorem restValues_eq_ok_iff {first : Value} {items : List Expr} {values : List Value} :
    restValues config row first items = .ok values ↔
      items.mapM (Expr.value config row) = .ok values ∧
        ∀ value ∈ values, value.kind = first.kind := by
  induction items generalizing values with
  | nil =>
      rw [restValues, List.mapM_nil, pure_eq_ok_iff, Except.ok.injEq, iff_self_and]
      rintro rfl
      simp only [List.not_mem_nil, false_implies, implies_true]
  | cons item rest ih =>
      simp only [restValues, List.mapM_cons, bind_eq_ok_iff, pure_eq_ok_iff, ih,
        Value.requireKind_eq_ok_iff]
      constructor
      · rintro ⟨value, found, _, typed, values, ⟨traversed, alike⟩, rfl⟩
        exact ⟨⟨value, found, values, traversed, rfl⟩, List.forall_mem_cons.mpr ⟨typed, alike⟩⟩
      · rintro ⟨⟨value, found, values, traversed, rfl⟩, alike⟩
        obtain ⟨typed, alike⟩ := List.forall_mem_cons.mp alike
        exact ⟨value, found, (), typed, values, ⟨traversed, alike⟩, rfl⟩

/-- A list has the values of its items if these have one type. -/
theorem listValues_eq_ok_iff {items : List Expr} {values : List Value} :
    listValues config row items = .ok values ↔
      items.mapM (Expr.value config row) = .ok values ∧
        ∀ value ∈ values, ∀ other ∈ values, value.kind = other.kind := by
  cases items with
  | nil =>
      rw [listValues, List.mapM_nil, pure_eq_ok_iff, Except.ok.injEq, iff_self_and]
      rintro rfl
      simp only [List.not_mem_nil, false_implies, implies_true]
  | cons item rest =>
      simp only [listValues, List.mapM_cons, bind_eq_ok_iff, pure_eq_ok_iff, restValues_eq_ok_iff]
      constructor
      · rintro ⟨first, found, values, ⟨traversed, alike⟩, rfl⟩
        have typed : ∀ value ∈ first :: values, value.kind = first.kind :=
          List.forall_mem_cons.mpr ⟨rfl, alike⟩
        exact ⟨⟨first, found, values, traversed, rfl⟩, fun value member other among =>
          (typed value member).trans (typed other among).symm⟩
      · rintro ⟨⟨first, found, values, traversed, rfl⟩, alike⟩
        exact ⟨first, found, values, ⟨traversed, fun value member =>
          alike value (List.mem_cons_of_mem _ member) first List.mem_cons_self⟩, rfl⟩

theorem mapM_value_of_listValues {items : List Expr} {values : List Value}
    (evaluated : listValues config row items = .ok values) :
    items.mapM (Expr.value config row) = .ok values :=
  (listValues_eq_ok_iff.mp evaluated).1

theorem Expr.list_or_single (side : Expr) :
    (∃ items, side = .list items) ∨ ∀ items, side ≠ .list items := by
  cases side with
  | list items => exact .inl ⟨items, rfl⟩
  | _ => exact .inr nofun

/-- A side that is no list gives its value as the only candidate on the left. -/
theorem leftCandidates_of_ne_list {side : Expr} (single : ∀ items, side ≠ .list items) :
    leftCandidates config row side = (side.value config row).map ([·]) := by
  cases side with
  | list items => exact absurd rfl (single items)
  | _ => rfl

/-- A side that is no list gives the candidates of its value on the right. -/
theorem rightCandidates_of_ne_list {side : Expr} (single : ∀ items, side ≠ .list items) :
    rightCandidates config row side = (side.value config row).map Value.candidates := by
  have opened : rightCandidates config row side = side.value config row >>= fun value =>
      match value with
      | .list items => return items
      | .multi _ items => return items
      | single => return [single] := by
    cases side with
    | list items => exact absurd rfl (single items)
    | _ => rfl
  rw [opened]
  cases side.value config row with
  | error failure => rfl
  | ok value => cases value <;> rfl

theorem leftCandidates_of_value {side : Expr} {value : Value}
    (resolved : side.value config row = .ok value) :
    leftCandidates config row side = .ok [value] := by
  have single : ∀ items, side ≠ .list items := by
    intro items isList
    rw [isList] at resolved
    exact absurd resolved nofun
  rw [leftCandidates_of_ne_list single, resolved]
  rfl

/-! ### The decision -/

namespace Value

/-- Unless the first value on the left is a multi value, all values must have one type, and those on
the left must be among those on the right. -/
theorem memberOf_plain_eq_ok_iff {first : Value} {rest listed : List Value} {decision : Bool}
    (plain : ∀ mode items, first ≠ .multi mode items) :
    memberOf (first :: rest) listed = .ok decision ↔
      (∀ value ∈ (first :: rest) ++ listed, value.kind = first.kind) ∧
        (decision = true ↔ ∀ value ∈ first :: rest, value ∈ listed) := by
  have opened : memberOf (first :: rest) listed = (do
      ((first :: rest) ++ listed).forM (requireKind "IN" first)
      return (first :: rest).all listed.contains) := by
    cases first with
    | multi mode items => exact absurd rfl (plain mode items)
    | _ => rfl
  have contained : (first :: rest).all listed.contains = true ↔
      ∀ value ∈ first :: rest, value ∈ listed := by
    simp only [List.all_eq_true, List.contains_iff_mem]
  rw [opened, ← contained, ← Bool.eq_iff_iff, @eq_comm _ decision]
  simp only [bind_eq_ok_iff, forM_eq_ok_iff, requireKind_eq_ok_iff, pure_eq_ok_iff, exists_const]

end Value

namespace Expr

variable {left right : Expr} {lefts rights : List Value} {negated : Bool}

theorem candidates_of_holds_member {decision : Bool}
    (decided : (member left right negated).holds config row = .ok decision) :
    Succeeds (leftCandidates config row left) ∧ Succeeds (rightCandidates config row right) := by
  rw [holds, membership] at decided
  obtain ⟨lefts, leftResolved, decided⟩ := bind_eq_ok_iff.mp decided
  obtain ⟨rights, rightResolved, -⟩ := bind_eq_ok_iff.mp decided
  exact ⟨⟨lefts, leftResolved⟩, ⟨rights, rightResolved⟩⟩

/-- A side without candidates discards the row, negated or not. -/
theorem holds_member_of_empty (leftResolved : leftCandidates config row left = .ok lefts)
    (rightResolved : rightCandidates config row right = .ok rights)
    (empty : lefts = [] ∨ rights = []) :
    (member left right negated).holds config row = .ok false := by
  have discarded : (lefts.isEmpty || rights.isEmpty) = true := by
    rw [Bool.or_eq_true, List.isEmpty_iff, List.isEmpty_iff]
    exact empty
  rw [holds, membership, leftResolved, rightResolved]
  exact if_pos discarded

/-- Candidates on both sides are tested for containment, and negation inverts the outcome. -/
theorem holds_member (leftResolved : leftCandidates config row left = .ok lefts)
    (rightResolved : rightCandidates config row right = .ok rights)
    (leftSome : lefts ≠ []) (rightSome : rights ≠ []) :
    (member left right negated).holds config row =
      (Value.memberOf lefts rights).map (· != negated) := by
  have kept : ¬ (lefts.isEmpty || rights.isEmpty) = true := by
    rw [Bool.or_eq_true, List.isEmpty_iff, List.isEmpty_iff, not_or]
    exact ⟨leftSome, rightSome⟩
  rw [holds, membership, leftResolved, rightResolved]
  exact if_neg kept

end Expr

end RowQuery
