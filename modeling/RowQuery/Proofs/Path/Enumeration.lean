import RowQuery.Proofs.Path.Branches

/-! # What a resolved path holds

A branch consumes the segments of a path one after the other: at an array it first chooses an item,
once, and the node that it then stands at must be an object with the field (`RowQuery.Path.Branch`).
The positions of the chosen items tell the branches of a node apart, and their lexicographic order
is the order in which the branches end in the document, so that a node has one list of branches in
document order (`RowQuery.Path.Enumerates.unique`). Strict resolution succeeds where this list is
not empty, and the leaves of what it finds are those at the ends of the branches, in this order
(`RowQuery.Path.resolve_branches`).
-/

namespace RowQuery.Path

open Attempt

/-- A way to consume the segments from a node, with the positions of the items chosen at the arrays
on the way and the node at its end. -/
inductive Branch : List String → Node → List Nat → Node → Prop
  | done (node : Node) : Branch [] node [] node
  | field {segment : String} {rest : List String} {node next last : Node} {choices : List Nat}
      (here : node.field? segment = some next) (onward : Branch rest next choices last) :
      Branch (segment :: rest) node choices last
  | item {segment : String} {rest : List String} {items : List Node} {position : Nat}
      {chosen next last : Node} {choices : List Nat} (choice : items[position]? = some chosen)
      (here : chosen.field? segment = some next) (onward : Branch rest next choices last) :
      Branch (segment :: rest) (.array items) (position :: choices) last

/-- A list of all branches from a node, in document order. -/
structure Enumerates (segments : List String) (node : Node) (listed : List (List Nat × Node)) :
    Prop where
  mem_iff : ∀ choices last, (choices, last) ∈ listed ↔ Branch segments node choices last
  ordered : listed.Pairwise fun earlier later => earlier.1 < later.1

/-- The branches that enter one node, given those from each field. -/
def entering (onward : Node → List (List Nat × Node)) (segment : String) (node : Node) :
    List (List Nat × Node) :=
  (node.field? segment).toList.flatMap onward

/-- The branches from a node, item by item at an array. -/
def branches : List String → Node → List (List Nat × Node)
  | [], node => [([], node)]
  | segment :: rest, .array items =>
    items.zipIdx.flatMap fun (item, position) =>
      (entering (branches rest) segment item).map fun (choices, last) => (position :: choices, last)
  | segment :: rest, node => entering (branches rest) segment node

section Enumeration

variable {segments : List String} {node : Node} {listed : List (List Nat × Node)}

theorem Enumerates.nodup (enumerates : Enumerates segments node listed) : listed.Nodup := by
  apply enumerates.ordered.imp
  intro earlier later before same
  subst same
  exact List.lt_irrefl _ before

/-- There is one list of all branches in document order. -/
theorem Enumerates.unique {other : List (List Nat × Node)}
    (enumerates : Enumerates segments node listed) (alike : Enumerates segments node other) :
    listed = other := by
  have permuted : listed.Perm other := by
    rw [List.perm_ext_iff_of_nodup enumerates.nodup alike.nodup]
    intro branch
    rw [enumerates.mem_iff, alike.mem_iff]
  apply permuted.eq_of_pairwise _ enumerates.ordered alike.ordered
  intro left right _ _ before after
  exact absurd after (List.lt_asymm before)

end Enumeration

variable {segment : String} {rest segments : List String} {node last : Node} {choices : List Nat}

theorem branches_array (segment : String) (rest : List String) (items : List Node) :
    branches (segment :: rest) (.array items) = items.zipIdx.flatMap fun (item, position) =>
      (entering (branches rest) segment item).map fun (choices, last) =>
        (position :: choices, last) := rfl

theorem branches_single (single : ∀ items, node ≠ .array items) :
    branches (segment :: rest) node = entering (branches rest) segment node := by
  cases node with
  | array items => exact absurd rfl (single items)
  | _ => rfl

/-! ### The branches are enumerated -/

theorem mem_entering_iff (onward : ∀ next choices last,
      (choices, last) ∈ branches rest next ↔ Branch rest next choices last) :
    (choices, last) ∈ entering (branches rest) segment node ↔
      ∃ next, node.field? segment = some next ∧ Branch rest next choices last := by
  simp only [entering, List.mem_flatMap, Option.mem_toList, onward]

theorem mem_branches_iff (segments : List String) (node : Node) (choices : List Nat)
    (last : Node) :
    (choices, last) ∈ branches segments node ↔ Branch segments node choices last := by
  induction segments generalizing node choices last with
  | nil =>
      rw [branches, List.mem_singleton, Prod.mk.injEq]
      constructor
      · rintro ⟨rfl, rfl⟩
        exact .done last
      · intro branch
        cases branch
        exact ⟨rfl, rfl⟩
  | cons segment rest ih =>
      obtain ⟨items, rfl⟩ | single := node.array_or_single
      · simp only [branches_array, List.mem_flatMap, List.mem_map, Prod.exists, Prod.mk.injEq,
          List.mem_zipIdx_iff_getElem?, mem_entering_iff ih]
        constructor
        · rintro ⟨item, position, choice, onward, _, ⟨next, here, branch⟩, rfl, rfl⟩
          exact .item choice here branch
        · intro branch
          cases branch with
          | field here onward => exact absurd here nofun
          | item choice here onward => exact ⟨_, _, choice, _, _, ⟨_, here, onward⟩, rfl, rfl⟩
      · rw [branches_single single, mem_entering_iff ih]
        constructor
        · rintro ⟨next, here, onward⟩
          exact .field here onward
        · intro branch
          cases branch with
          | field here onward => exact ⟨_, here, onward⟩
          | item choice here onward => exact absurd rfl (single _)

theorem entering_ordered
    (onward : ∀ next, (branches rest next).Pairwise fun earlier later => earlier.1 < later.1) :
    (entering (branches rest) segment node).Pairwise fun earlier later => earlier.1 < later.1 := by
  unfold entering
  cases node.field? segment with
  | none => exact .nil
  | some next =>
      rw [Option.toList_some, List.flatMap_singleton]
      exact onward next

/-- Branches that choose different items stand in the order of the items, and those that choose the
same item in the order of their further choices. -/
theorem branches_ordered (segments : List String) (node : Node) :
    (branches segments node).Pairwise fun earlier later => earlier.1 < later.1 := by
  induction segments generalizing node with
  | nil => exact List.pairwise_singleton _ _
  | cons segment rest ih =>
      obtain ⟨items, rfl⟩ | single := node.array_or_single
      · rw [branches_array, List.pairwise_flatMap]
        constructor
        · rintro ⟨item, position⟩ _
          rw [List.pairwise_map]
          apply (entering_ordered ih).imp
          intro earlier later before
          exact List.cons_lt_cons_iff.mpr (.inr ⟨rfl, before⟩)
        · have positions : items.zipIdx.Pairwise fun earlier later => earlier.2 < later.2 := by
            rw [← List.pairwise_map, List.zipIdx_map_snd]
            exact List.pairwise_lt_range' 1
          apply positions.imp
          rintro ⟨item, position⟩ ⟨other, further⟩ before first firstMem second secondMem
          obtain ⟨_, _, rfl⟩ := List.mem_map.mp firstMem
          obtain ⟨_, _, rfl⟩ := List.mem_map.mp secondMem
          exact List.cons_lt_cons_iff.mpr (.inl before)
      · rw [branches_single single]
        exact entering_ordered ih

theorem enumerates_branches (segments : List String) (node : Node) :
    Enumerates segments node (branches segments node) :=
  ⟨mem_branches_iff segments node, branches_ordered segments node⟩

/-! ### The ends of the branches -/

/-- The nodes at the ends of the branches, in document order. -/
def ends (segments : List String) (node : Node) : List Node :=
  (branches segments node).map Prod.snd

theorem map_snd_entering :
    (entering (branches rest) segment node).map Prod.snd =
      (node.field? segment).toList.flatMap (ends rest) :=
  List.map_flatMap

/-- The branches from a node end where those from the nodes under it do. -/
theorem ends_cons (segment : String) (rest : List String) (node : Node) :
    ends (segment :: rest) node = (node.under segment).flatMap (ends rest) := by
  obtain ⟨items, rfl⟩ | single := node.array_or_single
  · rw [ends, branches_array, Node.under, List.filterMap_eq_flatMap_toList, List.flatMap_assoc,
      List.map_flatMap]
    conv_rhs => rw [← List.zipIdx_map_fst 0 items, List.flatMap_map]
    apply List.flatMap_congr
    rintro ⟨item, position⟩ _
    rw [← map_snd_entering, List.map_map]
    rfl
  · rw [ends, branches_single single, map_snd_entering, Node.under_of_ne_array single]

theorem leads_iff_ends (segments : List String) (node : Node) :
    Leads segments node ↔ ends segments node ≠ [] := by
  induction segments generalizing node with
  | nil => exact iff_of_true trivial (List.cons_ne_nil node [])
  | cons segment rest ih =>
      rw [Leads, ends_cons, Ne, List.flatMap_eq_nil_iff]
      simp only [ih, not_forall, exists_prop]

/-- The leaves of what is found are the leaves at the ends of the branches. -/
theorem leaves_of_walk_strict {complete : String} {found : Node}
    (resolved : walk .strict complete segments node = .ok found) :
    found.leaves = (ends segments node).flatMap Node.leaves := by
  induction segments generalizing node found with
  | nil =>
      obtain rfl := Except.ok.inj resolved
      exact (List.flatMap_singleton Node.leaves node).symm
  | cons segment rest ih =>
      rw [ends_cons, List.flatMap_assoc]
      obtain ⟨items, rfl⟩ | single := node.array_or_single
      · rw [eq_array_of_walk resolved, List.flatMap_def]
        apply leaves_array_successes
        rw [List.forall₂_map_right_iff, List.forall₂_same]
        intro next _
        refine ⟨fun result found => ih found, fun fails => ?_⟩
        rw [← not_succeeds_iff, succeeds_walk_strict_iff, leads_iff_ends, not_not] at fails
        rw [fails, List.flatMap_nil]
      · rw [walk_field _ _ _ _ single] at resolved
        rw [Node.under_of_ne_array single]
        cases here : node.field? segment with
        | none =>
            rw [here] at resolved
            exact absurd resolved nofun
        | some next =>
            rw [here] at resolved
            rw [Option.toList_some, List.flatMap_singleton]
            exact ih resolved

/-- There is a branch exactly where the list of branches has an end. -/
theorem exists_branch_iff (segments : List String) (node : Node) :
    (∃ choices last, Branch segments node choices last) ↔ ends segments node ≠ [] := by
  rw [ends, Ne, List.map_eq_nil_iff, List.eq_nil_iff_forall_not_mem]
  simp only [Prod.forall, mem_branches_iff, not_forall, not_not]

/-- Strict resolution succeeds exactly where there is a branch, and then holds the leaves at the
ends of all branches in document order; otherwise it reports that the path leads nowhere. Lenient
resolution always succeeds. -/
theorem resolve_branches (path : Path) (node : Node) :
    Enumerates path.segments node (branches path.segments node) ∧
      (Succeeds (path.resolve .strict node) ↔
        ∃ choices last, Branch path.segments node choices last) ∧
      (∀ found, path.resolve .strict node = .ok found →
        found.leaves = (ends path.segments node).flatMap Node.leaves) ∧
      ((¬ ∃ choices last, Branch path.segments node choices last) →
        ∃ failure, NotFound failure ∧ path.resolve .strict node = .error failure) ∧
      Succeeds (path.resolve .lenient node) := by
  have succeeds : Succeeds (path.resolve .strict node) ↔
      ∃ choices last, Branch path.segments node choices last := by
    rw [exists_branch_iff, ← leads_iff_ends]
    exact succeeds_walk_strict_iff path.complete path.segments node
  refine ⟨enumerates_branches path.segments node, succeeds, fun found => leaves_of_walk_strict, ?_,
    succeeds_walk_lenient path.complete path.segments node⟩
  intro none
  obtain ⟨failure, failed⟩ := not_succeeds_iff.mp (mt succeeds.mp none)
  exact ⟨failure, resolve_failsOnly .strict path node failure failed, failed⟩

example (one two : Node) :
    branches ["a"] (.array [.object [("a", one)], .null, .object [("a", two)]]) =
      [([0], one), ([2], two)] := rfl

end RowQuery.Path
