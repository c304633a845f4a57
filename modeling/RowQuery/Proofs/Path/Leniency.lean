import RowQuery.Proofs.Path.Branches

/-! # Strict and lenient resolution

Where a path resolves strictly, it also resolves leniently, to the same tree with blank items put
into its arrays (`RowQuery.Path.padded_of_walk`): an item that has the next field but leads nowhere
further on is passed over by strict resolution and read as null, or as an array without values, by
lenient resolution. The two results are equal exactly if there is no such item
(`RowQuery.Path.walk_lenient_eq_iff`).
-/

namespace RowQuery

open Attempt

/-- Whether a node holds no value but null: it is null or an array of such nodes. -/
def Node.Blank (node : Node) : Prop :=
  ∀ leaf ∈ node.leaves, leaf = .null

theorem Node.blank_array_iff {items : List Node} :
    (Node.array items).Blank ↔ ∀ item ∈ items, item.Blank := by
  simp only [Blank, leaves_array, List.mem_flatMap, forall_exists_index, and_imp]
  exact ⟨fun blank item member leaf inside => blank leaf item member inside,
    fun blank leaf item member inside => blank item member leaf inside⟩

mutual

/-- Whether the second node is the first one with blank items put into arrays. -/
inductive Node.Padded : Node → Node → Prop
  | same (node : Node) : Padded node node
  | array {items padded : List Node} (each : PaddedItems items padded) :
      Padded (.array items) (.array padded)

/-- Whether the second list holds the items of the first, padded, among blank ones. -/
inductive Node.PaddedItems : List Node → List Node → Prop
  | nil : PaddedItems [] []
  | item {item padded : Node} {rest others : List Node} (first : Padded item padded)
      (each : PaddedItems rest others) : PaddedItems (item :: rest) (padded :: others)
  | blank {filler : Node} {items others : List Node} (blank : filler.Blank)
      (each : PaddedItems items others) : PaddedItems items (filler :: others)

end

namespace Path

variable {complete : String} {segments : List String} {node found padded : Node}

/-- Whether every array on the way is followed from each of its items that has the next field, or
from none. -/
def Even : List String → Node → Prop
  | [], _ => True
  | segment :: rest, node =>
    ∀ next ∈ node.under segment, (node.isArray = true → Leads rest next) ∧ Even rest next

instance decidableEven : (segments : List String) → (node : Node) → Decidable (Even segments node)
  | [], _ => .isTrue trivial
  | segment :: rest, node =>
    have := decidableEven rest
    inferInstanceAs (Decidable (∀ next ∈ node.under segment,
      (node.isArray = true → Leads rest next) ∧ Even rest next))

/-- Where no branch leads to the end, lenient resolution gives a blank node. -/
theorem blank_of_walk (astray : ¬ Leads segments node)
    (lenient : walk .lenient complete segments node = .ok padded) : padded.Blank := by
  induction segments generalizing node padded with
  | nil => exact absurd trivial astray
  | cons segment rest ih =>
      have lost : ∀ next ∈ node.under segment, ¬ Leads rest next :=
        fun next member leads => astray ⟨next, member, leads⟩
      obtain ⟨items, rfl⟩ | single := node.array_or_single
      · rw [walk_lenient_array, Except.ok.injEq] at lenient
        subst lenient
        rw [Node.blank_array_iff]
        intro value member
        obtain ⟨next, present, read⟩ := mem_successes_iff.mp member
        exact ih (lost next present) read
      · rw [Node.under_of_ne_array single] at lost
        rw [walk_field _ _ _ _ single] at lenient
        cases field : node.field? segment with
        | none =>
            rw [field] at lenient
            obtain rfl := Except.ok.inj lenient
            exact fun leaf member => List.mem_singleton.mp member
        | some next =>
            rw [field] at lenient lost
            exact ih (lost next (List.mem_singleton.mpr rfl)) lenient

/-- Items that resolve strictly are padded, and the others, which strict resolution passes over,
are read as blank items. -/
theorem paddedItems_successes {rest : List String} {nexts : List Node}
    (each : ∀ next ∈ nexts, ∀ found padded, walk .strict complete rest next = .ok found →
      walk .lenient complete rest next = .ok padded → found.Padded padded) :
    Node.PaddedItems (successes (nexts.map (walk .strict complete rest)))
      (successes (nexts.map (walk .lenient complete rest))) := by
  induction nexts with
  | nil => exact .nil
  | cons next others ih =>
      obtain ⟨first, later⟩ := List.forall_mem_cons.mp each
      obtain ⟨padded, lenient⟩ := succeeds_walk_lenient complete rest next
      rw [List.map_cons, List.map_cons, lenient, successes]
      cases strict : walk .strict complete rest next with
      | ok found => exact .item (first found padded strict lenient) (ih later)
      | error failure =>
          have astray : ¬ Leads rest next := by
            rw [← succeeds_walk_strict_iff complete, not_succeeds_iff]
            exact ⟨failure, strict⟩
          exact .blank (blank_of_walk astray lenient) (ih later)

/-- Lenient resolution pads what strict resolution gives. -/
theorem padded_of_walk (strict : walk .strict complete segments node = .ok found)
    (lenient : walk .lenient complete segments node = .ok padded) : found.Padded padded := by
  induction segments generalizing node found padded with
  | nil =>
      obtain rfl := Except.ok.inj strict
      obtain rfl := Except.ok.inj lenient
      exact .same node
  | cons segment rest ih =>
      obtain ⟨items, rfl⟩ | single := node.array_or_single
      · rw [walk_lenient_array, Except.ok.injEq] at lenient
        subst lenient
        obtain ⟨-, rfl⟩ := walk_strict_array_eq_ok_iff.mp strict
        exact .array (paddedItems_successes fun next _ _ _ => ih)
      · rw [walk_field _ _ _ _ single] at strict lenient
        cases field : node.field? segment with
        | none =>
            rw [field] at strict
            exact absurd strict nofun
        | some next =>
            rw [field] at strict lenient
            exact ih strict lenient

theorem successes_lenient_eq_iff {rest : List String} {nexts : List Node} :
    successes (nexts.map (walk .lenient complete rest)) =
        successes (nexts.map (walk .strict complete rest)) ↔
      ∀ next ∈ nexts, ∃ found, walk .strict complete rest next = .ok found ∧
        walk .lenient complete rest next = .ok found := by
  have total := map_ok_successes fun next (_ : next ∈ nexts) =>
    succeeds_walk_lenient complete rest next
  constructor
  · intro same
    have strict : ∀ next ∈ nexts, Succeeds (walk .strict complete rest next) := by
      apply succeeds_of_length_successes
      have lengths := congrArg List.length total
      rwa [List.length_map, List.length_map, same] at lengths
    rw [same, map_ok_successes strict, List.map_inj_left] at total
    intro next member
    obtain ⟨found, read⟩ := strict next member
    exact ⟨found, read, (total next member).symm.trans read⟩
  · intro each
    have same : nexts.map (walk .lenient complete rest) =
        nexts.map (walk .strict complete rest) := by
      rw [List.map_inj_left]
      intro next member
      obtain ⟨found, strict, lenient⟩ := each next member
      rw [strict, lenient]
    rw [same]

/-- A node that resolves strictly resolves leniently to the same result exactly if the path is even
there. -/
theorem walk_lenient_eq_iff (strict : walk .strict complete segments node = .ok found) :
    walk .lenient complete segments node = .ok found ↔ Even segments node := by
  induction segments generalizing node found with
  | nil => exact iff_of_true strict trivial
  | cons segment rest ih =>
      obtain ⟨items, rfl⟩ | single := node.array_or_single
      · obtain ⟨-, rfl⟩ := walk_strict_array_eq_ok_iff.mp strict
        rw [walk_lenient_array, Except.ok.injEq, Node.array.injEq, successes_lenient_eq_iff, Even]
        refine forall₂_congr fun next _ => ?_
        rw [← succeeds_walk_strict_iff complete, Node.isArray, imp_iff_right rfl]
        constructor
        · intro both
          obtain ⟨found, strict, lenient⟩ := both
          exact ⟨⟨found, strict⟩, (ih strict).mp lenient⟩
        · intro even
          obtain ⟨⟨found, strict⟩, even⟩ := even
          exact ⟨found, strict, (ih strict).mpr even⟩
      · rw [walk_field _ _ _ _ single] at strict ⊢
        rw [Even, Node.under_of_ne_array single, Node.isArray_eq_false_iff.mpr single]
        cases field : node.field? segment with
        | none =>
            rw [field] at strict
            exact (Succeeds.not_error ⟨found, strict⟩ _ rfl).elim
        | some next =>
            rw [field] at strict
            simp only [Option.toList_some, List.mem_singleton, Bool.false_eq_true, false_implies,
              true_and, forall_eq]
            exact ih strict

end Path

end RowQuery
