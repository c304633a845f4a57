import RowQuery.Proofs.Path.Leaves

/-! # Collection along joined paths

Collection succeeds where every leaf on the way has the next field (`RowQuery.Path.Thorough`), and
gives the leaves at the ends of the branches (`RowQuery.Path.reached`). Both go by the leaves of a
node only. What two paths joined by a dot collect is therefore what the second one collects from
everything that the first one collects, and what is collected from an array is what is collected
from its items, one after the other (`RowQuery.Path.collect_composes`).
-/

namespace RowQuery

open Attempt

namespace Path

/-- Two paths joined by a dot. -/
def dot (first second : Path) : Path :=
  ⟨first.complete ++ "." ++ second.complete⟩

/-- Whether every leaf on the way has the next field. -/
def Thorough : List String → Node → Prop
  | [], _ => True
  | segment :: rest, node =>
    ∀ leaf ∈ node.leaves, ∃ next, leaf.field? segment = some next ∧ Thorough rest next

/-- The leaves at the ends of the branches that enter every leaf with the next field. -/
def reached : List String → Node → List Node
  | [], node => node.leaves
  | segment :: rest, node =>
    node.leaves.flatMap fun leaf => (leaf.field? segment).toList.flatMap (reached rest)

variable {complete segment : String} {rest segments : List String} {node : Node}
  {items : List Node} {first second : Path}

theorem toList_dot (first second : Path) :
    (first.dot second).complete.toList =
      first.complete.toList ++ '.' :: second.complete.toList := by
  rw [dot, String.toList_append, String.toList_append, List.append_assoc]
  rfl

theorem isRoot_dot (inner : first.isRoot = false) : (first.dot second).isRoot = false := by
  rw [isRoot, Bool.or_eq_false_iff, decide_eq_false_iff_not, decide_eq_false_iff_not] at inner ⊢
  have later (chars : List Char) : chars ++ '.' :: second.complete.toList ≠ [] :=
    List.append_ne_nil_of_right_ne_nil chars (List.cons_ne_nil _ _)
  constructor
  · intro root
    have same := congrArg String.toList root
    rw [toList_dot] at same
    cases start : first.complete.toList with
    | nil => exact inner.2 (String.toList_inj.mp start)
    | cons c chars =>
        rw [start] at same
        exact later chars (List.cons.inj same).2
  · intro empty
    have same := congrArg String.toList empty
    rw [toList_dot] at same
    exact later _ same

/-- The segments of joined paths follow one another. -/
theorem segments_dot (firstInner : first.isRoot = false) (secondInner : second.isRoot = false) :
    (first.dot second).segments = first.segments ++ second.segments := by
  simp only [segments, isRoot_dot firstInner, firstInner, secondInner, Bool.false_eq_true,
    ↓reduceIte, toList_dot, splitDots_append, List.map_append]

/-! ### What is collected -/

theorem descend_cons (complete segment : String) (rest : List String) (node : Node) :
    descend complete (segment :: rest) node =
      (node.leaves.mapM fun leaf => branch complete segment leaf >>= descend complete rest).map
        List.flatten := rfl

theorem descend_eq_ok_iff :
    descend complete segments node = .ok items ↔
      Thorough segments node ∧ items = reached segments node := by
  induction segments generalizing node items with
  | nil => simp only [descend, Thorough, reached, Except.ok.injEq, true_and, eq_comm]
  | cons segment rest ih =>
      have each : ∀ leaf found,
          (branch complete segment leaf >>= descend complete rest) = .ok found ↔
            (∃ next, leaf.field? segment = some next ∧ Thorough rest next) ∧
              found = (leaf.field? segment).toList.flatMap (reached rest) := by
        intro leaf found
        simp only [bind_eq_ok_iff, branch_eq_ok_iff, ih]
        cases leaf.field? segment with
        | none => simp only [reduceCtorEq, false_and, exists_false]
        | some next =>
            simp only [Option.some.injEq, exists_eq_left', Option.toList_some,
              List.flatMap_singleton]
      simp only [descend_cons, map_eq_ok_iff, mapM_eq_ok_iff_of_iff each, Thorough, reached,
        List.flatMap_def]
      constructor
      · rintro ⟨found, ⟨thorough, rfl⟩, rfl⟩
        exact ⟨thorough, rfl⟩
      · rintro ⟨thorough, rfl⟩
        exact ⟨_, ⟨thorough, rfl⟩, rfl⟩

/-! ### Leaf by leaf -/

theorem thorough_iff_leaves (segments : List String) (node : Node) :
    Thorough segments node ↔ ∀ leaf ∈ node.leaves, Thorough segments leaf := by
  cases segments with
  | nil => exact iff_of_true trivial fun _ _ => trivial
  | cons segment rest =>
      refine forall₂_congr fun leaf member => ?_
      rw [Thorough, Node.leaves_of_mem_leaves member, List.forall_mem_singleton]

theorem reached_eq_flatMap_leaves (segments : List String) (node : Node) :
    reached segments node = node.leaves.flatMap (reached segments) := by
  cases segments with
  | nil =>
      rw [reached]
      conv_lhs => rw [← List.flatMap_singleton' node.leaves]
      exact List.flatMap_congr fun leaf member => (Node.leaves_of_mem_leaves member).symm
  | cons segment rest =>
      refine List.flatMap_congr fun leaf member => ?_
      rw [reached, Node.leaves_of_mem_leaves member, List.flatMap_singleton]

theorem reached_append (first second : List String) (node : Node) :
    reached (first ++ second) node = (reached first node).flatMap (reached second) := by
  induction first generalizing node with
  | nil => exact reached_eq_flatMap_leaves second node
  | cons segment rest ih =>
      have onward :
          reached (rest ++ second) = fun next => (reached rest next).flatMap (reached second) :=
        funext ih
      simp only [List.cons_append, reached, List.flatMap_assoc, onward]

/-- Two paths in a row find every field if the first one does, and the second one from everything
that the first one reaches. -/
theorem thorough_append (first second : List String) (node : Node) :
    Thorough (first ++ second) node ↔
      Thorough first node ∧ ∀ found ∈ reached first node, Thorough second found := by
  induction first generalizing node with
  | nil => exact (thorough_iff_leaves second node).trans (and_iff_right trivial).symm
  | cons segment rest ih =>
      have leafwise : ∀ leaf : Node,
          (∃ next, leaf.field? segment = some next ∧ Thorough (rest ++ second) next) ↔
            (∃ next, leaf.field? segment = some next ∧ Thorough rest next) ∧
              ∀ found ∈ (leaf.field? segment).toList.flatMap (reached rest),
                Thorough second found := by
        intro leaf
        cases leaf.field? segment with
        | none => simp only [reduceCtorEq, false_and, exists_false]
        | some next =>
            simp only [Option.some.injEq, exists_eq_left', Option.toList_some,
              List.flatMap_singleton]
            exact ih next
      simp only [List.cons_append, Thorough, reached, List.forall_mem_flatMap, leafwise,
        forall₂_and]

theorem isArray_of_mem_reached {found : Node} (member : found ∈ reached segments node) :
    found.isArray = false := by
  induction segments generalizing node with
  | nil => exact Node.isArray_of_mem_leaves member
  | cons segment rest ih =>
      obtain ⟨leaf, -, below⟩ := List.mem_flatMap.mp member
      obtain ⟨next, -, found⟩ := List.mem_flatMap.mp below
      exact ih found

/-- An array is descended from item by item, down to the failure. -/
theorem descend_array (complete : String) (segments : List String) (items : List Node) :
    descend complete segments (.array items) =
      (items.mapM (descend complete segments)).map List.flatten := by
  cases segments with
  | nil =>
      have each : items.mapM (descend complete []) = .ok (items.map Node.leaves) := List.mapM_pure
      rw [each, descend, Node.leaves_array]
      rfl
  | cons segment rest =>
      have each : items.mapM (descend complete (segment :: rest)) =
          (items.mapM fun item : Node => item.leaves.mapM fun leaf =>
            branch complete segment leaf >>= descend complete rest).map (List.map List.flatten) :=
        mapM_map_each List.flatten items
      rw [each, descend_cons, Node.leaves_array, mapM_flatMap]
      cases items.mapM fun item : Node => item.leaves.mapM fun leaf =>
          branch complete segment leaf >>= descend complete rest with
      | error failure => rfl
      | ok found => exact congrArg Except.ok List.flatten_flatten

/-! ### Joined paths -/

theorem collect_eq_ok_iff {path : Path} :
    path.collect node = .ok items ↔
      Thorough path.segments node ∧ items = reached path.segments node :=
  descend_eq_ok_iff

/-- **Collection composes.** Let two paths, neither of which is a spelling of the root, be joined by
a dot. The joined path is collected exactly if the first one is, and the second one from everything
that it gives, and then the results follow one another. Nothing that is collected is an array, and
an array gives what its items give, with the failure of the first item that fails. -/
theorem collect_composes {first second : Path} (firstInner : first.isRoot = false)
    (secondInner : second.isRoot = false) (node : Node) :
    (Succeeds ((first.dot second).collect node) ↔
      ∃ found, first.collect node = .ok found ∧
        ∀ start ∈ found, Succeeds (second.collect start)) ∧
    (∀ found parts, first.collect node = .ok found →
      List.Forall₂ (fun start part => second.collect start = .ok part) found parts →
      (first.dot second).collect node = .ok parts.flatten) ∧
    (∀ (path : Path) items, path.collect node = .ok items →
      ∀ item ∈ items, item.isArray = false) ∧
    ∀ (path : Path) items,
      path.collect (.array items) = (items.mapM path.collect).map List.flatten ∧
      (Fails (path.collect (.array items)) ↔ ∃ item ∈ items, Fails (path.collect item)) := by
  refine ⟨?_, ?_, ?_, ?_⟩
  · simp only [Succeeds, collect_eq_ok_iff, segments_dot firstInner secondInner, thorough_append]
    constructor
    · rintro ⟨_, ⟨thorough, onward⟩, rfl⟩
      exact ⟨_, ⟨thorough, rfl⟩, fun start member => ⟨_, onward start member, rfl⟩⟩
    · rintro ⟨_, ⟨thorough, rfl⟩, onward⟩
      refine ⟨_, ⟨thorough, fun start member => ?_⟩, rfl⟩
      obtain ⟨_, below, -⟩ := onward start member
      exact below
  · intro found parts collected each
    obtain ⟨thorough, rfl⟩ := collect_eq_ok_iff.mp collected
    have onward := (mapM_eq_ok_iff_of_iff fun _ _ => collect_eq_ok_iff).mp (mapM_eq_ok_iff.mpr each)
    rw [collect_eq_ok_iff, segments_dot firstInner secondInner, thorough_append, reached_append,
      onward.2, List.flatMap_def]
    exact ⟨⟨thorough, onward.1⟩, rfl⟩
  · intro path items collected item member
    obtain ⟨-, rfl⟩ := collect_eq_ok_iff.mp collected
    exact isArray_of_mem_reached member
  · intro path items
    have itemwise : path.collect (.array items) = (items.mapM path.collect).map List.flatten :=
      descend_array path.complete path.segments items
    refine ⟨itemwise, ?_⟩
    rw [itemwise, ← not_succeeds_iff, succeeds_map_iff, succeeds_mapM_iff]
    simp only [← not_succeeds_iff, not_forall, exists_prop]

/-- Arrays between two paths, within one of them and at their end, one of them empty, leave one
list. -/
theorem collect_composes_past_empty :
    let number n := Node.number (.ofInt64 n)
    let node := Node.object [("a", .array [.object [("b", .array [])],
      .object [("b", .array [.object [("c", .array [number 1, .array [number 2]])]])]])]
    (Path.mk "a.b").isRoot = false ∧ (Path.mk "c").isRoot = false ∧
      (Path.mk "a.b").collect node = .ok [.object [("c", .array [number 1, .array [number 2]])]] ∧
      ((Path.mk "a.b").dot ⟨"c"⟩).collect node = .ok [number 1, number 2] := by
  intro number node
  have collected : (Path.mk "a.b").collect node =
      .ok [.object [("c", .array [number 1, .array [number 2]])]] := rfl
  refine ⟨rfl, rfl, collected, ?_⟩
  exact (collect_composes rfl rfl node).2.1 _ [[number 1, number 2]] collected (.cons rfl .nil)

end Path

end RowQuery
