import RowQuery.Proofs.Path.Branches

/-! # Arrays item by item

Every path but the root spellings is resolved from an array item by item, except that items that are
arrays themselves are left out, whether or not the path leads somewhere from them
(`RowQuery.Path.resolve_itemwise`). The law for all items, `RowQuery.Path.Itemwise`, therefore holds
of the arrays whose array items lead nowhere, and of no others
(`RowQuery.Path.itemwise_iff`).
-/

namespace RowQuery.Path

open Attempt

/-- What the items resolve to on their own, without those that fail. -/
def itemResults (path : Path) (items : List Node) : List Node :=
  successes (items.map (path.resolve .strict))

/-- The array of some items resolves to the array of what the items resolve to, and fails only when
every item does. -/
structure Itemwise (path : Path) (items : List Node) : Prop where
  found : (∃ item ∈ items, Succeeds (path.resolve .strict item)) →
    path.resolve .strict (.array items) = .ok (.array (path.itemResults items))
  astray : (∃ failure, NotFound failure ∧ path.resolve .strict (.array items) = .error failure) ↔
    ∀ item ∈ items, Fails (path.resolve .strict item)

/-- The items that are not arrays. -/
def flatItems (items : List Node) : List Node :=
  items.filter (!·.isArray)

/-! ### Successes among some of the items -/

section Successes

variable {α β ε : Type} {attempt : α → Except ε β} {keep : α → Bool} {items : List α}

theorem length_successes_filter_le (attempt : α → Except ε β) (keep : α → Bool) (items : List α) :
    (successes ((items.filter keep).map attempt)).length ≤
      (successes (items.map attempt)).length := by
  induction items with
  | nil => exact Nat.le_refl 0
  | cons item rest ih =>
      rw [List.filter_cons, List.map_cons]
      split
      · rw [List.map_cons]
        cases attempt item with
        | ok value => exact Nat.succ_le_succ ih
        | error failure => exact ih
      · cases attempt item with
        | ok value => exact Nat.le_succ_of_le ih
        | error failure => exact ih

/-- Items may be left out exactly when they fail. -/
theorem successes_filter_iff :
    successes ((items.filter keep).map attempt) = successes (items.map attempt) ↔
      ∀ item ∈ items, keep item = false → Fails (attempt item) := by
  induction items with
  | nil => exact iff_of_true rfl (List.forall_mem_nil _)
  | cons item rest ih =>
      rw [List.forall_mem_cons, ← ih, List.filter_cons, List.map_cons]
      cases kept : keep item with
      | true =>
          rw [if_pos rfl, List.map_cons]
          cases attempt item with
          | ok value =>
              simp only [successes, List.cons.injEq, reduceCtorEq, false_implies, true_and]
          | error failure => simp only [successes, reduceCtorEq, false_implies, true_and]
      | false =>
          rw [if_neg Bool.false_ne_true]
          cases outcome : attempt item with
          | ok value =>
              apply iff_of_false
              · intro same
                have fewer := length_successes_filter_le attempt keep rest
                rw [same, successes, List.length_cons] at fewer
                omega
              · rintro ⟨fails, -⟩
                exact not_succeeds_iff.mpr (fails rfl) ⟨value, rfl⟩
          | error failure =>
              rw [successes]
              exact (and_iff_right fun _ => ⟨failure, rfl⟩).symm

end Successes

variable {path : Path} {items : List Node}

theorem itemResults_eq_nil_iff :
    path.itemResults items = [] ↔ ∀ item ∈ items, Fails (path.resolve .strict item) :=
  successes_eq_nil_iff

theorem itemResults_ne_nil_iff :
    path.itemResults items ≠ [] ↔ ∃ item ∈ items, Succeeds (path.resolve .strict item) := by
  simp only [ne_eq, itemResults_eq_nil_iff, ← not_succeeds_iff, not_forall, not_not, exists_prop]

/-- The items that are not arrays resolve to what the fields under the array do. -/
theorem successes_flatItems (complete segment : String) (rest : List String) (items : List Node) :
    successes ((flatItems items).map (walk .strict complete (segment :: rest))) =
      successes (((Node.array items).under segment).map (walk .strict complete rest)) := by
  dsimp only [flatItems, Node.under]
  induction items with
  | nil => rfl
  | cons item others ih =>
      obtain ⟨nested, rfl⟩ | single := item.array_or_single
      · exact ih
      · rw [List.filter_cons, Node.isArray_eq_false_iff.mpr single, Bool.not_false, if_pos rfl,
          List.map_cons, walk_field _ _ _ _ single, List.filterMap_cons]
        cases item.field? segment with
        | none => exact ih
        | some next =>
            dsimp only
            rw [List.map_cons]
            cases walk .strict complete rest next with
            | ok found => exact congrArg (found :: ·) ih
            | error failure => exact ih

theorem resolve_array_eq_ok_iff (inner : path.isRoot = false) {found : Node} :
    path.resolve .strict (.array items) = .ok found ↔
      path.itemResults (flatItems items) ≠ [] ∧
        found = .array (path.itemResults (flatItems items)) := by
  obtain ⟨segment, rest, segments⟩ := exists_segments inner
  have results : path.itemResults (flatItems items) =
      successes (((Node.array items).under segment).map (walk .strict path.complete rest)) := by
    rw [← successes_flatItems]
    unfold itemResults resolve
    rw [segments]
  rw [resolve, segments, walk_strict_array_eq_ok_iff, results]

theorem resolve_array_not_found_iff (inner : path.isRoot = false) :
    (∃ failure, NotFound failure ∧ path.resolve .strict (.array items) = .error failure) ↔
      ∀ item ∈ flatItems items, Fails (path.resolve .strict item) := by
  rw [← itemResults_eq_nil_iff]
  constructor
  · rintro ⟨failure, -, failed⟩
    by_contra some
    rw [(resolve_array_eq_ok_iff inner).mpr ⟨some, rfl⟩] at failed
    exact absurd failed nofun
  · intro none
    cases outcome : path.resolve .strict (.array items) with
    | ok found => exact absurd none ((resolve_array_eq_ok_iff inner).mp outcome).1
    | error failure => exact ⟨failure, resolve_failsOnly .strict path _ failure outcome, rfl⟩

/-- Leaving out the array items loses nothing exactly when they lead nowhere. -/
theorem itemResults_flatItems_iff :
    path.itemResults (flatItems items) = path.itemResults items ↔
      ∀ item ∈ items, item.isArray = true → Fails (path.resolve .strict item) := by
  rw [itemResults, itemResults, flatItems, successes_filter_iff]
  simp only [Bool.not_eq_false']

/-- The law for all items holds exactly of the arrays whose array items lead nowhere. -/
theorem itemwise_iff (inner : path.isRoot = false) :
    Itemwise path items ↔
      ∀ item ∈ items, item.isArray = true → Fails (path.resolve .strict item) := by
  constructor
  · intro itemwise
    by_cases none : path.itemResults items = []
    · exact fun item member _ => itemResults_eq_nil_iff.mp none item member
    · have resolved := itemwise.found (itemResults_ne_nil_iff.mp none)
      rw [resolve_array_eq_ok_iff inner] at resolved
      exact itemResults_flatItems_iff.mp (Node.array.inj resolved.2).symm
  · intro nested
    have same := itemResults_flatItems_iff.mpr nested
    constructor
    · intro some
      rw [resolve_array_eq_ok_iff inner, same]
      exact ⟨itemResults_ne_nil_iff.mpr some, rfl⟩
    · rw [resolve_array_not_found_iff inner, ← itemResults_eq_nil_iff, same,
        itemResults_eq_nil_iff]

/-- **Arrays resolve item by item, apart from the items that are arrays themselves.** If another
item resolves, the array resolves to what those items resolve to, in order, and otherwise the path
leads nowhere. -/
theorem resolve_itemwise {path : Path} (inner : path.isRoot = false) (items : List Node) :
    ((∃ item ∈ flatItems items, Succeeds (path.resolve .strict item)) →
      path.resolve .strict (.array items) = .ok (.array (path.itemResults (flatItems items)))) ∧
    ((∃ failure, NotFound failure ∧ path.resolve .strict (.array items) = .error failure) ↔
      ∀ item ∈ flatItems items, Fails (path.resolve .strict item)) ∧
    (Itemwise path items ↔
      ∀ item ∈ items, item.isArray = true → Fails (path.resolve .strict item)) := by
  refine ⟨fun some => ?_, resolve_array_not_found_iff inner, itemwise_iff inner⟩
  exact (resolve_array_eq_ok_iff inner).mpr ⟨itemResults_ne_nil_iff.mpr some, rfl⟩

/-- The object after an array item is found, and the array item is passed over. -/
theorem resolve_past_nested :
    let one := Node.object [("a", .number (.ofInt64 1))]
    let two := Node.object [("a", .number (.ofInt64 2))]
    (Path.mk "a").isRoot = false ∧ (Path.mk "a").resolve .strict (.array [.array [one], two]) =
      .ok (.array [.number (.ofInt64 2)]) :=
  ⟨rfl, (resolve_itemwise rfl _).1 ⟨_, List.mem_singleton.mpr rfl, _, rfl⟩⟩

/-- An array item that resolves on its own is lost where it is the only item. -/
theorem nested_item_lost :
    let one := Node.object [("a", .number (.ofInt64 1))]
    (Path.mk "a").isRoot = false ∧
      (Path.mk "a").resolve .strict (.array [one]) = .ok (.array [.number (.ofInt64 1)]) ∧
      ¬ Itemwise (Path.mk "a") [.array [one]] := by
  refine ⟨rfl, rfl, fun itemwise => ?_⟩
  obtain ⟨failure, failed⟩ := (itemwise_iff rfl).mp itemwise _ (List.mem_singleton.mpr rfl) rfl
  exact absurd failed nofun

end RowQuery.Path
