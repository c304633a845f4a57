import RowQuery.Proofs.Evaluation.WholeRow

/-! # Whole rows without inference

Where texts are not probed for ISO layouts, conversion only changes integers beyond the signed
64-bit range. If a document has none, selecting the whole row gives back the kept rows as they
stand, and so does the JSON form of the table (`RowQuery.Query.wholeRow_lossless`).
-/

namespace RowQuery

open Attempt

namespace Node

mutual

/-- The numbers in a tree, in order. -/
def numbers : Node → List Number
  | .number given => [given]
  | .array items => numbersOfItems items
  | .object fields => numbersOfFields fields
  | _ => []

/-- The numbers in several trees. -/
def numbersOfItems : List Node → List Number
  | [] => []
  | item :: rest => item.numbers ++ numbersOfItems rest

/-- The numbers in the entries of an object. -/
def numbersOfFields : List (String × Node) → List Number
  | [] => []
  | (_, entry) :: rest => entry.numbers ++ numbersOfFields rest

end

mutual

theorem preserved_iff_signed : (node : Node) →
    (node.Preserved false ↔ ∀ number ∈ node.numbers, number.Signed)
  | .null | .boolean _ => iff_of_true trivial (List.forall_mem_nil _)
  | .text _ => iff_of_true nofun (List.forall_mem_nil _)
  | .number _ => by rw [Preserved, numbers, List.forall_mem_singleton]
  | .array items => preservedItems_iff_signed items
  | .object fields => preservedFields_iff_signed fields

theorem preservedItems_iff_signed : (items : List Node) →
    (PreservedItems false items ↔ ∀ number ∈ numbersOfItems items, number.Signed)
  | [] => iff_of_true trivial (List.forall_mem_nil _)
  | item :: rest => by
      rw [PreservedItems, numbersOfItems, List.forall_mem_append, preserved_iff_signed item,
        preservedItems_iff_signed rest]

theorem preservedFields_iff_signed : (fields : List (String × Node)) →
    (PreservedFields false fields ↔ ∀ number ∈ numbersOfFields fields, number.Signed)
  | [] => iff_of_true trivial (List.forall_mem_nil _)
  | (_, entry) :: rest => by
      rw [PreservedFields, numbersOfFields, List.forall_mem_append, preserved_iff_signed entry,
        preservedFields_iff_signed rest]

end

theorem preservedItems_iff {inferTemporal : Bool} {items : List Node} :
    PreservedItems inferTemporal items ↔ ∀ item ∈ items, item.Preserved inferTemporal := by
  induction items with
  | nil => exact iff_of_true trivial (List.forall_mem_nil _)
  | cons item rest ih => rw [PreservedItems, ih, List.forall_mem_cons]

theorem preservedFields_iff {inferTemporal : Bool} {fields : List (String × Node)} :
    PreservedFields inferTemporal fields ↔
      ∀ field ∈ fields, field.2.Preserved inferTemporal := by
  induction fields with
  | nil => exact iff_of_true trivial (List.forall_mem_nil _)
  | cons field rest ih => rw [PreservedFields, ih, List.forall_mem_cons]

theorem hereditary_preserved (inferTemporal : Bool) : Hereditary (Preserved inferTemporal) where
  null := trivial
  array_iff := preservedItems_iff
  entry := preservedFields_iff.mp

end Node

namespace Table

variable {config : Config}

/-- The JSON form of the table of whole rows has one field for each row, under the root path. -/
theorem toNode_ofRows (rows : List Node) : (ofRows config rows).toNode =
    .array (rows.map fun row =>
      .object [(rootPath, (Value.ofNode config.inferTemporal row).toNode)]) := by
  cases rows with
  | nil => rfl
  | cons first rest =>
      rw [toNode, ofRows, List.map_map]
      rfl

end Table

namespace Query

variable {config : Config} {query : Query} {document : Node} {result : Table}

/-- **Whole rows are given back unchanged.** Without inference and duplicate elimination, a query
that selects the whole row of a document whose integers are signed 64-bit words, if it is answered,
gives exactly the kept rows, one cell each, and the JSON form of its table is the array of the
objects that hold these rows under the root path. -/
theorem wholeRow_lossless (wellFormed : document.WellFormed)
    (signed : ∀ number ∈ document.numbers, number.Signed)
    (plain : config.inferTemporal = false) (selected : query.selectors = [.wholeRow])
    (duplicates : query.distinct = false) (answered : query.run config document = .ok result) :
    ∃ table rows, (Path.mk query.root).resolve .strict document = .ok table ∧
      query.filterRows config table = .ok rows ∧
      List.Forall₂ (fun row cells => ∃ cell : Value, cells = [cell] ∧ cell.toNode = row)
        rows result.rows ∧
      result.toNode = .array (rows.map fun row => .object [(rootPath, row)]) := by
  obtain ⟨_, -, staged⟩ := bind_eq_ok_iff.mp answered
  obtain ⟨table, rooted, staged⟩ := bind_eq_ok_iff.mp staged
  obtain ⟨rows, filtered, -⟩ := bind_eq_ok_iff.mp staged
  have tabulated := run_wholeRow selected duplicates rooted filtered
  obtain rfl := Except.ok.inj (answered.symm.trans tabulated)
  have wellFormedRows := Node.hereditary_wellFormed.rows wellFormed rooted
  have preservedRows := (Node.hereditary_preserved false).rows
    (document.preserved_iff_signed.mpr signed) rooted
  have unchanged : ∀ row ∈ rows, (Value.ofNode config.inferTemporal row).toNode = row := by
    intro row kept
    have member : row ∈ table.leaves := mem_of_filterRows filtered kept
    rw [plain, Value.toNode_ofNode false (wellFormedRows row member)]
    exact (Node.canonical_eq_iff row).mpr (preservedRows row member)
  refine ⟨table, rows, rooted, filtered, ?_, ?_⟩
  · rw [Table.ofRows, List.forall₂_map_right_iff]
    exact List.forall₂_same.mpr fun row kept => ⟨_, rfl, unchanged row kept⟩
  · rw [Table.toNode_ofRows]
    refine congrArg Node.array (List.map_congr_left fun row kept => ?_)
    rw [unchanged row kept]

theorem lossless_keeps_kinds :
    let small := Node.object [("size", .number (.ofInt64 1)), ("at", .text "18:25")]
    let large := Node.object [("size", .number (.decimal 1.0 (by decide))), ("tags", .array [])]
    let table := Node.array [small, .array [.object [("size", .null)], large]]
    let document := Node.object [("items", table)]
    let query : Query :=
      { root := "items", selectors := [.wholeRow],
        filter := some (.comparison (.column "size") .notEqual (.literal .null)) }
    let config : Config := { inferTemporal := false }
    document.WellFormed ∧ (∀ number ∈ document.numbers, number.Signed) ∧
      ∃ result, query.run config document = .ok result ∧
        result.toNode = .array [.object [(".", small)], .object [(".", large)]] := by
  intro small large table document query config
  have wellFormed : document.WellFormed :=
    ⟨by decide, ⟨⟨by decide, trivial, trivial, trivial⟩,
      ⟨⟨by decide, trivial, trivial⟩, ⟨by decide, trivial, trivial, trivial⟩, trivial⟩, trivial⟩,
      trivial⟩
  have signed : ∀ number ∈ document.numbers, number.Signed :=
    List.forall_mem_cons.mpr ⟨Int64.toInt_lt 1, List.forall_mem_singleton.mpr trivial⟩
  have rooted : (Path.mk "items").resolve .strict document = .ok table := rfl
  have filtered : query.filterRows config table = .ok [small, large] := rfl
  have answered := run_wholeRow rfl rfl rooted filtered
  obtain ⟨found, rows, again, same, -, shown⟩ :=
    wholeRow_lossless wellFormed signed rfl rfl rfl answered
  obtain rfl := Except.ok.inj (rooted.symm.trans again)
  obtain rfl := Except.ok.inj (filtered.symm.trans same)
  exact ⟨wellFormed, signed, _, answered, shown⟩

end Query

end RowQuery
