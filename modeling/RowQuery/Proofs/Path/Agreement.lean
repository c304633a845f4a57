import RowQuery.Proofs.Condition.Operand
import RowQuery.Proofs.Evaluation.Rows
import RowQuery.Proofs.Fields
import RowQuery.Proofs.Path.Leaves

/-! # Resolution and collection

Resolution builds nested arrays and passes over items that lead nowhere, collection gives one flat
list and needs every branch. In a document without arrays directly inside arrays they agree: where a
path can be collected, the leaves of what it resolves to are the collected nodes
(`RowQuery.Path.resolve_agrees`), so that the rows of a table are the values that a match function
ranges over.
-/

namespace RowQuery

open Attempt

namespace Node

mutual

/-- Whether no array of a tree has an array among its items. -/
def isUnnested : Node → Bool
  | .array items => items.all (!·.isArray) && areUnnested items
  | .object fields => haveUnnested fields
  | _ => true

/-- Whether this holds of each node. -/
def areUnnested : List Node → Bool
  | [] => true
  | item :: rest => item.isUnnested && areUnnested rest

/-- Whether this holds of each entry. -/
def haveUnnested : List (String × Node) → Bool
  | [] => true
  | (_, entry) :: rest => entry.isUnnested && haveUnnested rest

end

theorem areUnnested_iff {items : List Node} :
    areUnnested items = true ↔ ∀ item ∈ items, item.isUnnested = true := by
  induction items with
  | nil => simp only [areUnnested, List.not_mem_nil, false_implies, implies_true]
  | cons item rest ih => rw [areUnnested, Bool.and_eq_true, ih, List.forall_mem_cons]

theorem haveUnnested_iff {fields : List (String × Node)} :
    haveUnnested fields = true ↔ ∀ field ∈ fields, field.2.isUnnested = true := by
  induction fields with
  | nil => simp only [haveUnnested, List.not_mem_nil, false_implies, implies_true]
  | cons field rest ih => rw [haveUnnested, Bool.and_eq_true, ih, List.forall_mem_cons]

theorem isUnnested_of_field? {node entry : Node} {name : String}
    (unnested : node.isUnnested = true) (present : node.field? name = some entry) :
    entry.isUnnested = true := by
  cases node with
  | object fields => exact haveUnnested_iff.mp unnested _ (Fields.mem_of_get? present)
  | _ => exact absurd present nofun

/-- The leaves of an array without inner arrays are its items. -/
theorem leaves_array_of_isUnnested {items : List Node}
    (unnested : (Node.array items).isUnnested = true) :
    (Node.array items).leaves = items ∧ ∀ item ∈ items, item.isUnnested = true := by
  rw [isUnnested, Bool.and_eq_true, List.all_eq_true, areUnnested_iff] at unnested
  obtain ⟨single, each⟩ := unnested
  refine ⟨?_, each⟩
  have same : ∀ item ∈ items, item.leaves = [item] := by
    intro item member
    exact leaves_of_ne_array (isArray_eq_false_iff.mp (Bool.not_eq_true' _ ▸ single item member))
  rw [leaves_array, List.flatMap_congr same, List.flatMap_singleton']

/-- Without arrays inside arrays, a segment leads from the leaves of a node to what it leads to from
the node. -/
theorem under_eq_filterMap_leaves {node : Node} (unnested : node.isUnnested = true)
    (segment : String) : node.under segment = node.leaves.filterMap (·.field? segment) := by
  obtain ⟨items, rfl⟩ | single := node.array_or_single
  · rw [(leaves_array_of_isUnnested unnested).1, under]
  · rw [leaves_of_ne_array single, under_of_ne_array single, List.filterMap_cons,
      List.filterMap_nil]
    cases node.field? segment with
    | none => rfl
    | some next => rfl

theorem isUnnested_of_mem_under {node next : Node} {segment : String}
    (unnested : node.isUnnested = true) (member : next ∈ node.under segment) :
    next.isUnnested = true := by
  have leaf : ∀ leaf ∈ node.leaves, leaf.isUnnested = true := by
    obtain ⟨items, rfl⟩ | single := node.array_or_single
    · obtain ⟨same, each⟩ := leaves_array_of_isUnnested unnested
      rwa [same]
    · rw [leaves_of_ne_array single, List.forall_mem_singleton]
      exact unnested
  rw [under_eq_filterMap_leaves unnested, List.mem_filterMap] at member
  obtain ⟨inner, present, field⟩ := member
  exact isUnnested_of_field? (leaf inner present) field

end Node

namespace Path

variable {complete segment : String} {rest segments : List String} {node : Node}
  {items : List Node}

theorem branches_of_descend (unnested : node.isUnnested = true)
    (collected : descend complete (segment :: rest) node = .ok items) :
    node.leaves.map (·.field? segment) = (node.under segment).map some ∧
      ∃ found, List.Forall₂ (fun next leaves => descend complete rest next = .ok leaves)
        (node.under segment) found ∧ items = found.flatten := by
  obtain ⟨found, traversed, joined⟩ := bind_eq_ok_iff.mp collected
  obtain rfl := pure_eq_ok_iff.mp joined
  have each := mapM_eq_ok_iff.mp traversed
  suffices followed : node.leaves.map (·.field? segment) = (node.under segment).map some ∧
      List.Forall₂ (fun next leaves => descend complete rest next = .ok leaves)
        (node.under segment) found from
    ⟨followed.1, found, followed.2, rfl⟩
  rw [Node.under_eq_filterMap_leaves unnested]
  generalize node.leaves = leaves at each ⊢
  clear traversed joined collected
  induction each with
  | nil => exact ⟨rfl, .nil⟩
  | cons first _ ih =>
      obtain ⟨next, field, below⟩ := bind_eq_ok_iff.mp first
      have present := branch_eq_ok_iff.mp field
      obtain ⟨fields, found⟩ := ih
      rw [List.filterMap_cons, List.map_cons, present, fields]
      exact ⟨rfl, .cons below found⟩

/-- Where no branch leads to the end, nothing is collected. -/
theorem eq_nil_of_descend (unnested : node.isUnnested = true)
    (collected : descend complete segments node = .ok items) (astray : ¬ Leads segments node) :
    items = [] := by
  induction segments generalizing node items with
  | nil => exact absurd trivial astray
  | cons segment rest ih =>
      have lost : ∀ next ∈ node.under segment, next.isUnnested = true ∧ ¬ Leads rest next :=
        fun next member => ⟨Node.isUnnested_of_mem_under unnested member,
          fun leads => astray ⟨next, member, leads⟩⟩
      obtain ⟨-, found, each, rfl⟩ := branches_of_descend unnested collected
      generalize node.under segment = nexts at each lost
      clear collected
      induction each with
      | nil => rfl
      | cons first _ later =>
          obtain ⟨⟨plain, astray⟩, others⟩ := List.forall_mem_cons.mp lost
          rw [List.flatten_cons, ih plain first astray, List.nil_append, later others]

/-- The leaves of what a path resolves to are the collected nodes. -/
theorem leaves_of_walk {absence : Absence} {found : Node} (unnested : node.isUnnested = true)
    (collected : descend complete segments node = .ok items)
    (resolved : walk absence complete segments node = .ok found) : found.leaves = items := by
  induction segments generalizing node items found with
  | nil =>
      obtain rfl := Except.ok.inj resolved
      exact Except.ok.inj collected
  | cons segment rest ih =>
      have plain : ∀ next ∈ node.under segment, next.isUnnested = true :=
        fun next member => Node.isUnnested_of_mem_under unnested member
      obtain ⟨fields, branches, each, rfl⟩ := branches_of_descend unnested collected
      obtain ⟨inner, rfl⟩ | single := node.array_or_single
      · obtain rfl := eq_array_of_walk resolved
        apply leaves_array_successes
        -- A node that is passed over leads nowhere, so nothing is collected below it.
        refine ((List.forall₂_and_left _ _).mpr ⟨plain, each⟩).imp fun next leaves both => ?_
        obtain ⟨simple, below⟩ := both
        refine ⟨fun result => ih simple below, fun fails => ?_⟩
        cases absence with
        | strict =>
            refine eq_nil_of_descend simple below fun leads => ?_
            exact not_fails_iff.mpr ((succeeds_walk_strict_iff complete rest next).mpr leads) fails
        | lenient =>
            exact absurd fails (not_fails_iff.mpr (succeeds_walk_lenient complete rest next))
      · rw [walk_field _ _ _ _ single] at resolved
        rw [Node.under_of_ne_array single] at each plain fields
        rw [Node.leaves_of_ne_array single] at fields
        cases field : node.field? segment with
        | none =>
            rw [List.map_singleton, field] at fields
            exact absurd fields nofun
        | some next =>
            rw [field] at resolved each plain
            obtain ⟨leaves, others, below, none, rfl⟩ := List.forall₂_cons_left_iff.mp each
            obtain rfl := List.forall₂_nil_left_iff.mp none
            rw [List.flatten_singleton]
            exact ih (plain next (List.mem_singleton.mpr rfl)) below resolved

/-- **Resolution and collection agree.** In a tree without arrays directly inside arrays, let a path
be collected. If it reaches anything, it resolves strictly, to a node with the collected leaves, and
if it reaches nothing, it leads nowhere or to a node without leaves. It always resolves leniently to
a node with the collected leaves. The rows of the table at the path are then the nodes whose values
a match function ranges over. -/
theorem resolve_agrees {path : Path} {node : Node} {items : List Node}
    (unnested : node.isUnnested = true) (collected : path.collect node = .ok items) :
    (items ≠ [] → ∃ found, path.resolve .strict node = .ok found ∧ found.leaves = items) ∧
    (items = [] →
      (∃ failure, NotFound failure ∧ path.resolve .strict node = .error failure) ∨
      ∃ found, path.resolve .strict node = .ok found ∧ found.leaves = []) ∧
    (∃ found, path.resolve .lenient node = .ok found ∧ found.leaves = items) ∧
    (∀ (query : Query) (config : Config) (table : Node), query.root = path.complete →
      query.filter = none → (Path.mk query.root).resolve .strict node = .ok table →
      query.filterRows config table = .ok items ∧
      (Expr.matching .matchAny query.root).value config node =
        .ok (.multi .matchAny (items.map (Value.ofNode config.inferTemporal)))) := by
  refine ⟨fun present => ?_, fun empty => ?_, ?_, ?_⟩
  · have leads : Leads path.segments node := by
      by_contra astray
      exact present (eq_nil_of_descend unnested collected astray)
    obtain ⟨found, resolved⟩ := (succeeds_walk_strict_iff path.complete _ node).mpr leads
    exact ⟨found, resolved, leaves_of_walk unnested collected resolved⟩
  · cases resolved : path.resolve .strict node with
    | error failure =>
        exact .inl ⟨failure, resolve_failsOnly .strict path node failure resolved, rfl⟩
    | ok found => exact .inr ⟨found, rfl, empty ▸ leaves_of_walk unnested collected resolved⟩
  · obtain ⟨found, resolved⟩ := succeeds_walk_lenient path.complete path.segments node
    exact ⟨found, resolved, leaves_of_walk unnested collected resolved⟩
  · intro query config table root unfiltered resolved
    obtain rfl : path = ⟨query.root⟩ := by rw [root]
    have rows : table.leaves = items := leaves_of_walk unnested collected resolved
    constructor
    · rw [Query.filterRows_unfiltered unfiltered, rows]
    · rw [Expr.value_matching_eq, collected]
      rfl

/-- An item whose inner array is empty is passed over, and nothing is collected below it. -/
theorem resolve_agrees_past_empty :
    let one := Node.number (.ofInt64 1)
    let two := Node.number (.ofInt64 2)
    let node := Node.object [("a", .array [.object [("b", .array [])],
      .object [("b", .array [.object [("c", .array [one, two])]])]])]
    node.isUnnested = true ∧ (Path.mk "a.b.c").collect node = .ok [one, two] ∧
      ∃ found, (Path.mk "a.b.c").resolve .strict node = .ok found ∧ found.leaves = [one, two] :=
  ⟨rfl, rfl, (resolve_agrees rfl rfl).1 (List.cons_ne_nil _ _)⟩

end Path

end RowQuery
