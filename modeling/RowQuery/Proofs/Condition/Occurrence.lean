import RowQuery.Proofs.Condition.Containment
import RowQuery.Proofs.Path.Agreement

/-! # Occurrence in an array

There are two ways to ask whether a value occurs in an array: a membership test in the column, which
looks among the items of the array that the path resolves to, and an equality with `matchAny`, which
compares all collected values. In a row without arrays directly inside arrays they agree where both
are decided (`RowQuery.Expr.holds_member_column_eq_matching`): a membership test demands one type of
all its candidates, so that none of them is itself an array, and candidates of which none is an
array are the collected values (`RowQuery.Value.candidates_eq_map_leaves`).
-/

namespace RowQuery

open Attempt

namespace Value

variable {inferTemporal : Bool}

theorem candidates_infer (written : String) : (infer written).candidates = [infer written] := by
  unfold infer
  repeat' split
  all_goals rfl

theorem candidates_ofNumber (number : Number) :
    (ofNumber number).candidates = [ofNumber number] := by
  unfold ofNumber
  split <;> rfl

/-- The value of a node that is no array is its own only candidate. -/
theorem candidates_of_ne_array {node : Node} (single : ∀ items, node ≠ .array items) :
    (ofNode inferTemporal node).candidates = [ofNode inferTemporal node] := by
  cases node with
  | array items => exact absurd rfl (single items)
  | number number => exact candidates_ofNumber number
  | text written =>
      cases inferTemporal with
      | false => rfl
      | true => exact candidates_infer written
  | _ => rfl

/-- Unless a candidate is itself an array, the candidates that a node gives are the values of its
leaves. -/
theorem candidates_eq_map_leaves {node : Node}
    (flat : ∀ value ∈ (ofNode inferTemporal node).candidates, value.kind ≠ .list) :
    (ofNode inferTemporal node).candidates = node.leaves.map (ofNode inferTemporal) := by
  obtain ⟨items, rfl⟩ | single := node.array_or_single
  · rw [ofNode, candidates, ofItems_eq_map] at flat ⊢
    have same : ∀ item ∈ items, item.leaves = [item] := by
      intro item member
      apply Node.leaves_of_ne_array
      rintro inner rfl
      exact flat _ (List.mem_map_of_mem member) rfl
    rw [Node.leaves_array, List.flatMap_congr same, List.flatMap_singleton']
  · rw [candidates_of_ne_array single, Node.leaves_of_ne_array single, List.map_singleton]

/-- A value that is no float is discordant with no value of its own type. -/
theorem not_discordant_of_kind_eq {item value : Value} (same : item.kind = value.kind)
    (exact : value.kind ≠ .float) : ¬ Discordant item value := by
  cases value with
  | float number => exact absurd rfl exact
  | integer whole =>
      cases item with
      | float number => exact absurd same nofun
      | _ => exact id
  | _ => cases item <;> exact id

end Value

namespace Expr

variable {config : Config} {row : Node} {path : String} {operand : Expr} {found : Value}
  {contained matched : Bool}

/-- A membership test in a column that is decided for a single value, together with a collection of
the column, asks whether the value is one of the collected ones, and a collected value has the type
of the value that is looked for. -/
theorem holds_member_column_eq_ok {items : List Node} (unnested : row.isUnnested = true)
    (collected : (Path.mk path).collect row = .ok items)
    (resolved : operand.value config row = .ok found)
    (plain : ∀ mode items, found ≠ .multi mode items) (scalar : found.kind ≠ .list)
    (tested : (member operand (column path) false).holds config row = .ok contained) :
    (contained = true ↔ found ∈ items.map (Value.ofNode config.inferTemporal)) ∧
      ∀ item ∈ items.map (Value.ofNode config.inferTemporal), item.kind = found.kind := by
  have sought := leftCandidates_of_value resolved
  obtain ⟨-, candidates, listed⟩ := candidates_of_holds_member tested
  have noList : ∀ items, column path ≠ .list items := nofun
  obtain ⟨value, valued, rfl⟩ := map_eq_ok_iff.mp (rightCandidates_of_ne_list noList ▸ listed)
  obtain ⟨node, read, rfl⟩ := columnValue_eq_ok_iff.mp valued
  -- Membership is decided only among candidates of one type, and then no candidate is an array.
  have decided : (∀ value ∈ (Value.ofNode config.inferTemporal node).candidates,
        value.kind = found.kind) ∧
      (contained = true ↔ found ∈ (Value.ofNode config.inferTemporal node).candidates) := by
    by_cases empty : (Value.ofNode config.inferTemporal node).candidates = []
    · rw [holds_member_of_empty sought listed (.inr empty), Except.ok.injEq] at tested
      rw [empty, ← tested]
      exact ⟨List.forall_mem_nil _, iff_of_false nofun List.not_mem_nil⟩
    · rw [holds_member sought listed (List.cons_ne_nil _ _) empty, map_eq_ok_iff] at tested
      obtain ⟨decision, tested, rfl⟩ := tested
      obtain ⟨typed, among⟩ := (Value.memberOf_plain_eq_ok_iff plain).mp tested
      rw [Bool.bne_false, among, List.forall_mem_singleton]
      exact ⟨fun value member => typed value (List.mem_append_right _ member), Iff.rfl⟩
  obtain ⟨typed, among⟩ := decided
  have leaves : node.leaves = items := Path.leaves_of_walk unnested collected read
  have same := Value.candidates_eq_map_leaves fun value member =>
    (typed value member).trans_ne scalar
  rw [same, leaves] at typed among
  exact ⟨among, typed⟩

/-- **Two ways to look for a value in an array.** Take a row without arrays directly inside arrays
and an operand whose value is single and neither a float nor an array. Where both are decided, the
membership test of the operand in a column and the equality of the operand with some collected value
of the column have the same outcome. -/
theorem holds_member_column_eq_matching (unnested : row.isUnnested = true)
    (resolved : operand.value config row = .ok found)
    (scalar : found.kind ∉ [Kind.float, .list, .multi])
    (tested : (member operand (column path) false).holds config row = .ok contained)
    (compared :
      (comparison (matching .matchAny path) .equal operand).holds config row = .ok matched) :
    contained = matched := by
  simp only [List.mem_cons, List.not_mem_nil, or_false, not_or] at scalar
  obtain ⟨exact, single, plain⟩ := scalar
  have alone : ∀ mode items, found ≠ .multi mode items := by
    rintro mode items rfl
    exact plain rfl
  obtain ⟨values, gathered, -⟩ := bind_eq_ok_iff.mp compared
  rw [value_matching_eq, map_eq_ok_iff] at gathered
  obtain ⟨nodes, collected, -⟩ := gathered
  obtain ⟨among, typed⟩ :=
    holds_member_column_eq_ok unnested collected resolved alone single tested
  obtain ⟨decided, -, some⟩ :=
    (holds_matching_comparison collected resolved alone matched).1.mp compared
  have same : ∀ item ∈ nodes.map (Value.ofNode config.inferTemporal),
      item.compare .equal found = .ok true ↔ item = found := by
    intro item member
    rw [Value.compare, Value.equal_eq_ok_true_iff (decided item member),
      Value.promotedEqual_eq_beq_iff.mpr
        (Value.not_discordant_of_kind_eq (typed item member) exact), beq_iff_eq]
  rw [Bool.eq_iff_iff, among, some]
  constructor
  · intro member
    exact ⟨found, member, (same found member).mpr rfl⟩
  · rintro ⟨item, member, equals⟩
    exact (same item member).mp equals ▸ member

/-- The number 2 is found under the second item of an array in both ways. -/
theorem two_found_under_items :
    let row := Node.object [("a", .array
      [.object [("b", .number (.ofInt64 1))], .object [("b", .number (.ofInt64 2))]])]
    ∃ contained matched,
      (member (literal (.integer 2)) (column "a.b") false).holds {} row = .ok contained ∧
      (comparison (matching .matchAny "a.b") .equal (literal (.integer 2))).holds {} row =
        .ok matched ∧
      contained = matched := by
  intro row
  have tested : (member (literal (.integer 2)) (column "a.b") false).holds {} row = .ok true := rfl
  have compared : (comparison (matching .matchAny "a.b") .equal (literal (.integer 2))).holds {} row
    = .ok true := rfl
  exact ⟨true, true, tested, compared,
    holds_member_column_eq_matching rfl rfl (by decide) tested compared⟩

end Expr

end RowQuery
