import RowQuery.Proofs.Fields
import RowQuery.Proofs.Path.Leaves

/-! # Hereditary predicates

A predicate on trees is hereditary if it passes from a tree to its parts and from the items of an
array to the array. Such a predicate passes from a document to whatever a path leads to
(`RowQuery.Node.Hereditary.resolve`) and to every row of a table
(`RowQuery.Node.Hereditary.rows`). Having distinct field names is one.
-/

namespace RowQuery

namespace Node

/-- Whether a predicate passes to the parts of a tree, and from parts to arrays. -/
structure Hereditary (holds : Node → Prop) : Prop where
  null : holds .null
  array_iff : ∀ {items}, holds (.array items) ↔ ∀ item ∈ items, holds item
  entry : ∀ {fields : List (String × Node)}, holds (.object fields) →
    ∀ field ∈ fields, holds field.2

namespace Hereditary

variable {holds : Node → Prop} {node found : Node}

theorem field? (hereditary : Hereditary holds) {name : String} (start : holds node)
    (present : node.field? name = some found) : holds found := by
  cases node with
  | object fields => exact hereditary.entry start _ (Fields.mem_of_get? present)
  | _ => exact absurd present nofun

theorem under (hereditary : Hereditary holds) {segment : String} (start : holds node)
    (member : found ∈ node.under segment) : holds found := by
  obtain ⟨items, rfl⟩ | single := node.array_or_single
  · obtain ⟨item, inside, field⟩ := List.mem_filterMap.mp member
    exact hereditary.field? (hereditary.array_iff.mp start item inside) field
  · rw [under_of_ne_array single, Option.mem_toList] at member
    exact hereditary.field? start member

theorem leaves (hereditary : Hereditary holds) (start : holds node) :
    ∀ leaf ∈ node.leaves, holds leaf := by
  induction node using induction_on_arrays with
  | single node single =>
      rw [leaves_of_ne_array single]
      exact List.forall_mem_singleton.mpr start
  | array items ih =>
      intro leaf member
      rw [leaves_array, List.mem_flatMap] at member
      obtain ⟨item, inside, below⟩ := member
      exact ih item inside (hereditary.array_iff.mp start item inside) leaf below

theorem walk (hereditary : Hereditary holds) {absence : Absence} {complete : String}
    {segments : List String} (start : holds node)
    (resolved : Path.walk absence complete segments node = .ok found) : holds found := by
  induction segments generalizing node found with
  | nil =>
      obtain rfl := Except.ok.inj resolved
      exact start
  | cons segment rest ih =>
      obtain ⟨items, rfl⟩ | single := node.array_or_single
      · obtain rfl := Path.eq_array_of_walk resolved
        apply hereditary.array_iff.mpr
        intro item member
        obtain ⟨next, under, read⟩ := Path.mem_successes_iff.mp member
        exact ih (hereditary.under start under) read
      · rw [Path.walk_field _ _ _ _ single] at resolved
        split at resolved
        · next next field => exact ih (hereditary.field? start field) resolved
        · cases absence with
          | strict => exact absurd resolved nofun
          | lenient =>
              obtain rfl := Except.ok.inj resolved
              exact hereditary.null

theorem resolve (hereditary : Hereditary holds) {absence : Absence} {path : Path}
    (start : holds node) (resolved : path.resolve absence node = .ok found) : holds found :=
  hereditary.walk start resolved

/-- A hereditary predicate passes from a document to the rows of each of its tables. -/
theorem rows (hereditary : Hereditary holds) {path : Path} {document table : Node}
    (start : holds document) (rooted : path.resolve .strict document = .ok table) :
    ∀ row ∈ table.leaves, holds row :=
  hereditary.leaves (hereditary.resolve start rooted)

end Hereditary

theorem wellFormedItems_iff {items : List Node} :
    WellFormedItems items ↔ ∀ item ∈ items, item.WellFormed := by
  induction items with
  | nil => exact iff_of_true trivial (List.forall_mem_nil _)
  | cons item rest ih => rw [WellFormedItems, ih, List.forall_mem_cons]

theorem wellFormedFields_iff {fields : List (String × Node)} :
    WellFormedFields fields ↔ ∀ field ∈ fields, field.2.WellFormed := by
  induction fields with
  | nil => exact iff_of_true trivial (List.forall_mem_nil _)
  | cons field rest ih => rw [WellFormedFields, ih, List.forall_mem_cons]

theorem hereditary_wellFormed : Hereditary WellFormed where
  null := trivial
  array_iff := wellFormedItems_iff
  entry := fun wellFormed => wellFormedFields_iff.mp wellFormed.2

end Node

end RowQuery
