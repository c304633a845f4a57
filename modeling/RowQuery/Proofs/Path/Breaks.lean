import RowQuery.Proofs.Path.Branches

/-! # Where a path breaks off

A path that leads nowhere is reported at one place. The descent to this place enters the first item
with the next field at each array (`RowQuery.Node.entrance?`) and ends at the first node from which
it cannot go on; the failure says whether that node is an array (`RowQuery.Path.BreaksOff`). Every
failure of strict resolution is the one at this place, and no item after an entered one has a say in
it (`RowQuery.Path.resolve_breaksOff`).
-/

namespace RowQuery

open Attempt

namespace Node

/-- The next field from a node: its own one, or at an array that of the first item with it. -/
def entrance? (node : Node) (segment : String) : Option Node :=
  match node with
  | .array items => items.findSome? (·.field? segment)
  | single => single.field? segment

variable {node next : Node} {segment : String}

theorem entrance?_of_ne_array (single : ∀ items, node ≠ .array items) :
    node.entrance? segment = node.field? segment := by
  cases node with
  | array items => exact absurd rfl (single items)
  | _ => rfl

theorem entrance?_array_of_lack {items : List Node}
    (lack : ∀ item ∈ items, item.field? segment = none) :
    (Node.array items).entrance? segment = none :=
  List.findSome?_eq_none_iff.mpr lack

theorem entrance?_of_field? (here : node.field? segment = some next) :
    node.entrance? segment = some next := by
  cases node with
  | object fields => exact here
  | _ => exact absurd here nofun

theorem entrance?_eq_head? (node : Node) (segment : String) :
    node.entrance? segment = (node.under segment).head? := by
  obtain ⟨items, rfl⟩ | single := node.array_or_single
  · exact List.head?_filterMap.symm
  · rw [entrance?_of_ne_array single, under_of_ne_array single, Option.head?_toList]

/-- An array is entered at the first item with the field. -/
theorem entrance?_array_of_first {before after : List Node} {chosen : Node}
    (lacking : ∀ item ∈ before, item.field? segment = none)
    (here : chosen.field? segment = some next) :
    (Node.array (before ++ chosen :: after)).entrance? segment = some next :=
  List.findSome?_eq_some_iff.mpr ⟨before, chosen, after, rfl, here, lacking⟩

end Node

namespace Path

/-- The place at which the descent of a path ends too early, and its failure. -/
inductive BreaksOff (complete : String) : List String → Node → QueryError → Prop
  /-- A node that is no array lacks the next field: the complete path is named. -/
  | lacking {segment : String} {rest : List String} {node : Node}
      (single : ∀ items, node ≠ .array items) (lacks : node.field? segment = none) :
      BreaksOff complete (segment :: rest) node (.elementNotFound complete none)
  /-- No item of an array has the next field: what is left of the path is named, too. -/
  | astray {segment : String} {rest : List String} {items : List Node}
      (lack : ∀ item ∈ items, item.field? segment = none) :
      BreaksOff complete (segment :: rest) (.array items)
        (.elementNotFound (join (segment :: rest)) (some complete))
  /-- The descent goes on. -/
  | onward {segment : String} {rest : List String} {node next : Node} {failure : QueryError}
      (entered : node.entrance? segment = some next)
      (below : BreaksOff complete rest next failure) :
      BreaksOff complete (segment :: rest) node failure

/-- Whether two nodes differ, where the descent of a path comes by, only in items after the entered
ones. -/
inductive AlikeToFirst : List String → Node → Node → Prop
  | same (segments : List String) (node : Node) : AlikeToFirst segments node node
  | field {segment : String} {rest : List String} {node other next twin : Node}
      (here : node.field? segment = some next) (there : other.field? segment = some twin)
      (below : AlikeToFirst rest next twin) : AlikeToFirst (segment :: rest) node other
  | item {segment : String} {rest : List String} {before after others : List Node}
      {chosen other next twin : Node} (lacking : ∀ item ∈ before, item.field? segment = none)
      (here : chosen.field? segment = some next) (there : other.field? segment = some twin)
      (below : AlikeToFirst rest next twin) :
      AlikeToFirst (segment :: rest) (.array (before ++ chosen :: after))
        (.array (before ++ other :: others))

variable {complete segment : String} {rest segments : List String} {node other next : Node}
  {items : List Node} {failure : QueryError}

/-- Where a node is entered, the path breaks off below. -/
theorem breaksOff_iff_of_entrance? (entered : node.entrance? segment = some next) :
    BreaksOff complete (segment :: rest) node failure ↔ BreaksOff complete rest next failure := by
  constructor
  · intro breaks
    cases breaks with
    | lacking single lacks =>
        rw [Node.entrance?_of_ne_array single, lacks] at entered
        exact absurd entered nofun
    | astray lack =>
        rw [Node.entrance?_array_of_lack lack] at entered
        exact absurd entered nofun
    | onward found below =>
        obtain rfl := Option.some.inj (entered.symm.trans found)
        exact below
  · exact .onward entered

theorem BreaksOff.unique {otherFailure : QueryError}
    (breaks : BreaksOff complete segments node failure)
    (again : BreaksOff complete segments node otherFailure) : failure = otherFailure := by
  induction breaks with
  | lacking single lacks =>
      cases again with
      | lacking _ _ => rfl
      | astray _ => exact absurd rfl (single _)
      | onward entered _ =>
          rw [Node.entrance?_of_ne_array single, lacks] at entered
          exact absurd entered nofun
  | astray lack =>
      cases again with
      | lacking single _ => exact absurd rfl (single _)
      | astray _ => rfl
      | onward entered _ =>
          rw [Node.entrance?_array_of_lack lack] at entered
          exact absurd entered nofun
  | onward entered _ ih => exact ih ((breaksOff_iff_of_entrance? entered).mp again)

/-- Items after the entered ones have no say in the place and the failure. -/
theorem AlikeToFirst.breaksOff_iff (alike : AlikeToFirst segments node other) :
    BreaksOff complete segments node failure ↔ BreaksOff complete segments other failure := by
  induction alike with
  | same => exact Iff.rfl
  | field here there _ ih =>
      rw [breaksOff_iff_of_entrance? (Node.entrance?_of_field? here),
        breaksOff_iff_of_entrance? (Node.entrance?_of_field? there), ih]
  | item lacking here there _ ih =>
      rw [breaksOff_iff_of_entrance? (Node.entrance?_array_of_first lacking here),
        breaksOff_iff_of_entrance? (Node.entrance?_array_of_first lacking there), ih]

/-- An array fails if every attempt below it does, and then as the first of them. -/
theorem walk_strict_array_eq_error_iff :
    walk .strict complete (segment :: rest) (.array items) = .error failure ↔
      let attempts := ((Node.array items).under segment).map (walk .strict complete rest)
      successes attempts = [] ∧ failure = (firstFailure? attempts).getD
        (.elementNotFound (join (segment :: rest)) (some complete)) := by
  rw [walk_array]
  dsimp only [Node.under]
  split
  · next none =>
      rw [Bool.and_eq_true, List.isEmpty_iff] at none
      simp only [none.1, true_and, Except.error.injEq, eq_comm]
  · next some =>
      rw [Bool.and_eq_true, List.isEmpty_iff, decide_eq_true rfl, and_iff_left rfl] at some
      simp only [reduceCtorEq, some, false_and]

/-- Strict resolution fails where the path breaks off. -/
theorem breaksOff_of_walk (failed : walk .strict complete segments node = .error failure) :
    BreaksOff complete segments node failure := by
  induction segments generalizing node failure with
  | nil => exact absurd failed nofun
  | cons segment rest ih =>
      obtain ⟨items, rfl⟩ | single := node.array_or_single
      · obtain ⟨none, rfl⟩ := walk_strict_array_eq_error_iff.mp failed
        have entrance := Node.entrance?_eq_head? (.array items) segment
        cases under : (Node.array items).under segment with
        | nil => exact .astray (List.filterMap_eq_nil_iff.mp under)
        | cons next others =>
            rw [under] at none entrance
            -- All attempts fail, so the one from the entered item is the first that does.
            obtain ⟨first, fails⟩ := successes_eq_nil_iff.mp none next List.mem_cons_self
            refine .onward entrance (ih ?_)
            rw [List.map_cons, fails, firstFailure?, Option.getD_some]
      · rw [walk_field _ _ _ _ single] at failed
        cases field : node.field? segment with
        | none =>
            rw [field] at failed
            obtain rfl := Except.error.inj failed
            exact .lacking single field
        | some next =>
            rw [field] at failed
            exact .onward (Node.entrance?_of_field? field) (ih failed)

/-- **Failures name the place where the path breaks off.** Where strict resolution fails, its
failure is the one failure of the descent that enters the first item with the next field at each
array. Two nodes that differ only in items after the entered ones cannot fail differently. -/
theorem resolve_breaksOff (path : Path) (node : Node) :
    (∀ failure, path.resolve .strict node = .error failure ↔
      Fails (path.resolve .strict node) ∧
        BreaksOff path.complete path.segments node failure) ∧
    ∀ other failure otherFailure, AlikeToFirst path.segments node other →
      path.resolve .strict node = .error failure →
      path.resolve .strict other = .error otherFailure → otherFailure = failure := by
  constructor
  · intro failure
    constructor
    · intro failed
      exact ⟨⟨failure, failed⟩, breaksOff_of_walk failed⟩
    · rintro ⟨⟨found, failed⟩, breaks⟩
      rw [failed, breaks.unique (breaksOff_of_walk failed)]
  · intro other failure otherFailure alike failed otherFailed
    exact (breaksOff_of_walk otherFailed).unique (alike.breaksOff_iff.mp (breaksOff_of_walk failed))

/-- The last item is not entered, although its failure would name another place. -/
example :
    let entered := Node.object [("b", .array [.null])]
    let passedOver := Node.object [("b", .null)]
    (Path.mk "a.b.c").resolve .strict (.object [("a", .array [.null, entered, passedOver])]) =
      .error (.elementNotFound "c" (some "a.b.c")) := rfl

end Path

end RowQuery
