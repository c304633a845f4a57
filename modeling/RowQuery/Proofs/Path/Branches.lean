import RowQuery.Proofs.Path.Failures

/-! # Branches of a path

A segment leads from a node to the nodes under it: to the field of an object, or to the fields of
those items of an array that have one (`RowQuery.Node.under`). Strict resolution needs one branch
that has a field for every segment (`RowQuery.Path.succeeds_walk_strict_iff`); lenient resolution
needs nothing (`RowQuery.Path.succeeds_walk_lenient`).
-/

namespace RowQuery

open Attempt

/-- Whether a node is an array. -/
def Node.isArray : Node → Bool
  | .array _ => true
  | _ => false

theorem Node.isArray_eq_false_iff {node : Node} :
    node.isArray = false ↔ ∀ items, node ≠ .array items := by
  cases node <;> simp [isArray]

theorem Node.array_or_single (node : Node) :
    (∃ items, node = .array items) ∨ ∀ items, node ≠ .array items := by
  cases node with
  | array items => exact .inl ⟨items, rfl⟩
  | _ => exact .inr nofun

/-- The nodes that a segment leads to. -/
def Node.under (node : Node) (segment : String) : List Node :=
  match node with
  | .array items => items.filterMap (·.field? segment)
  | single => (single.field? segment).toList

theorem Node.under_of_ne_array {node : Node} (single : ∀ items, node ≠ .array items)
    (segment : String) : node.under segment = (node.field? segment).toList := by
  cases node with
  | array items => exact absurd rfl (single items)
  | _ => rfl

namespace Path

/-- Whether some branch has a field for every segment. -/
def Leads : List String → Node → Prop
  | [], _ => True
  | segment :: rest, node => ∃ next ∈ node.under segment, Leads rest next

instance decidableLeads : (segments : List String) → (node : Node) → Decidable (Leads segments node)
  | [], _ => .isTrue trivial
  | segment :: rest, node =>
    have := decidableLeads rest
    inferInstanceAs (Decidable (∃ next ∈ node.under segment, Leads rest next))

/-! ### Successes among attempts -/

section Successes

variable {α β ε : Type} {attempt : α → Except ε β} {items : List α}

theorem mem_successes_iff {value : β} :
    value ∈ successes (items.map attempt) ↔ ∃ item ∈ items, attempt item = .ok value := by
  induction items with
  | nil => simp only [List.map_nil, successes, List.not_mem_nil, false_and, exists_false]
  | cons item rest ih =>
      rw [List.map_cons, List.exists_mem_cons_iff, ← ih]
      cases attempt item with
      | ok found => simp only [successes, List.mem_cons, Except.ok.injEq, eq_comm]
      | error failure => simp only [successes, reduceCtorEq, false_or]

theorem successes_eq_nil_iff :
    successes (items.map attempt) = [] ↔ ∀ item ∈ items, Fails (attempt item) := by
  simp only [List.eq_nil_iff_forall_not_mem, mem_successes_iff, ← not_succeeds_iff, Succeeds,
    not_exists, not_and]
  exact ⟨fun none item member value => none value item member,
    fun none value item member => none item member value⟩

theorem map_ok_successes (succeed : ∀ item ∈ items, Succeeds (attempt item)) :
    (successes (items.map attempt)).map .ok = items.map attempt := by
  induction items with
  | nil => rfl
  | cons item rest ih =>
      obtain ⟨⟨value, found⟩, others⟩ := List.forall_mem_cons.mp succeed
      rw [List.map_cons, found, successes, List.map_cons, ih others]

theorem length_successes_le : (successes (items.map attempt)).length ≤ items.length := by
  induction items with
  | nil => exact Nat.le_refl 0
  | cons item rest ih =>
      rw [List.map_cons, List.length_cons]
      cases attempt item with
      | ok value =>
          rw [successes, List.length_cons]
          omega
      | error failure =>
          rw [successes]
          omega

theorem succeeds_of_length_successes
    (complete : (successes (items.map attempt)).length = items.length) :
    ∀ item ∈ items, Succeeds (attempt item) := by
  induction items with
  | nil => exact List.forall_mem_nil _
  | cons item rest ih =>
      rw [List.map_cons, List.length_cons] at complete
      cases outcome : attempt item with
      | ok value =>
          rw [outcome, successes, List.length_cons] at complete
          exact List.forall_mem_cons.mpr ⟨⟨value, outcome⟩, ih (by omega)⟩
      | error failure =>
          rw [outcome, successes] at complete
          have few : (successes (rest.map attempt)).length ≤ rest.length := length_successes_le
          omega

end Successes

/-! ### Resolution from an array -/

variable {complete segment : String} {rest : List String}

theorem walk_strict_array_eq_ok_iff {items : List Node} {found : Node} :
    walk .strict complete (segment :: rest) (.array items) = .ok found ↔
      let results := successes
        (((Node.array items).under segment).map (walk .strict complete rest))
      results ≠ [] ∧ found = .array results := by
  rw [walk_array]
  dsimp only [Node.under]
  split
  · next none =>
      rw [Bool.and_eq_true, List.isEmpty_iff] at none
      simp only [reduceCtorEq, none.1, ne_eq, not_true_eq_false, false_and]
  · next some =>
      rw [Bool.and_eq_true, List.isEmpty_iff, decide_eq_true rfl, and_iff_left rfl] at some
      simp only [Except.ok.injEq, some, ne_eq, not_false_eq_true, true_and, eq_comm]

theorem walk_lenient_array (items : List Node) :
    walk .lenient complete (segment :: rest) (.array items) =
      .ok (.array (successes
        (((Node.array items).under segment).map (walk .lenient complete rest)))) := by
  rw [walk_array]
  simp only [reduceCtorEq, decide_false, Bool.and_false, Bool.false_eq_true, ↓reduceIte, Node.under]

theorem eq_array_of_walk {absence : Absence} {items : List Node} {found : Node}
    (resolved : walk absence complete (segment :: rest) (.array items) = .ok found) :
    found = .array (successes
      (((Node.array items).under segment).map (walk absence complete rest))) := by
  cases absence with
  | strict => exact (walk_strict_array_eq_ok_iff.mp resolved).2
  | lenient => exact (Except.ok.inj ((walk_lenient_array items).symm.trans resolved)).symm

/-- The leaves found in an array are those found below each item, where an item that is passed over
has none. -/
theorem leaves_array_successes {ε : Type} {attempt : Node → Except ε Node} {nexts : List Node}
    {found : List (List Node)}
    (each : List.Forall₂ (fun next leaves =>
      (∀ result, attempt next = .ok result → result.leaves = leaves) ∧
        (Fails (attempt next) → leaves = [])) nexts found) :
    (Node.array (successes (nexts.map attempt))).leaves = found.flatten := by
  rw [Node.leaves_array]
  induction each with
  | nil => rfl
  | @cons next leaves _ _ first _ ih =>
      obtain ⟨read, lost⟩ := first
      rw [List.map_cons, List.flatten_cons, ← ih]
      cases outcome : attempt next with
      | ok result => rw [successes, List.flatMap_cons, read result outcome]
      | error failure => rw [successes, lost ⟨failure, outcome⟩, List.nil_append]

/-! ### Which resolutions succeed -/

theorem succeeds_walk_strict_iff (complete : String) (segments : List String) (node : Node) :
    Succeeds (walk .strict complete segments node) ↔ Leads segments node := by
  induction segments generalizing node with
  | nil => exact iff_of_true ⟨node, rfl⟩ trivial
  | cons segment rest ih =>
      obtain ⟨items, rfl⟩ | single := node.array_or_single
      · have any : Succeeds (walk .strict complete (segment :: rest) (.array items)) ↔
            successes
              (((Node.array items).under segment).map (walk .strict complete rest)) ≠ [] := by
          simp only [Succeeds, walk_strict_array_eq_ok_iff, exists_and_left, exists_eq, and_true]
        rw [any, ne_eq, successes_eq_nil_iff]
        simp only [← not_succeeds_iff, ih, Leads, not_forall, exists_prop, not_not]
      · rw [walk_field _ _ _ _ single, Leads, Node.under_of_ne_array single]
        cases node.field? segment with
        | none =>
            simp only [Option.toList_none, List.not_mem_nil, false_and, exists_false, iff_false]
            exact fun succeeds => succeeds.not_error _ rfl
        | some next =>
            simp only [Option.toList_some, List.mem_singleton, exists_eq_left]
            exact ih next

theorem succeeds_walk_lenient (complete : String) (segments : List String) (node : Node) :
    Succeeds (walk .lenient complete segments node) := by
  induction segments generalizing node with
  | nil => exact ⟨node, rfl⟩
  | cons segment rest ih =>
      obtain ⟨items, rfl⟩ | single := node.array_or_single
      · exact ⟨_, walk_lenient_array items⟩
      · rw [walk_field _ _ _ _ single]
        cases node.field? segment with
        | none => exact ⟨.null, rfl⟩
        | some next => exact ih next

end Path

end RowQuery
