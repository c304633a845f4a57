import RowQuery.Proofs.Evaluation.Stages
import RowQuery.Proofs.Path.Hereditary
import RowQuery.Proofs.Value.Rendered

/-! # Whole rows

A query that selects the whole row gives one cell for each kept row, the value of the row
(`RowQuery.Query.run_wholeRow`). Converted back, the cell is the row with its large integers as the
nearest floats and its temporal texts in canonical form, and the row itself exactly if conversion
preserves each of its leaves (`RowQuery.Query.wholeRow_toNode`).
-/

namespace RowQuery

open Attempt

variable {config : Config}

/-- The table with one column, which holds the value of each row. -/
def Table.ofRows (config : Config) (rows : List Node) : Table where
  headers := if rows.isEmpty then [] else [rootPath]
  rows := rows.map fun row => [Value.ofNode config.inferTemporal row]

theorem Selector.mapM_project_wholeRow (rows : List Node) :
    rows.mapM (project config [.wholeRow]) =
      .ok (rows.map fun row => [(rootPath, Value.ofNode config.inferTemporal row)]) := by
  rw [mapM_eq_ok_iff, List.forall₂_map_right_iff]
  exact List.forall₂_same.mpr fun row _ => rfl

theorem Table.ofProjected_wholeRow (rows : List Node) :
    ofProjected (rows.map fun row => [(rootPath, Value.ofNode config.inferTemporal row)]) =
      ofRows config rows := by
  cases rows with
  | nil => rfl
  | cons first rest =>
      simp only [ofProjected, ofRows, List.map_cons, List.map_map]
      rfl

namespace Query

variable {query : Query} {document table : Node} {rows : List Node}

/-- Selecting the whole row gives the values of the kept rows in one column. -/
theorem run_wholeRow (selected : query.selectors = [.wholeRow])
    (duplicates : query.distinct = false)
    (rooted : (Path.mk query.root).resolve .strict document = .ok table)
    (filtered : query.filterRows config table = .ok rows) :
    query.run config document = .ok (Table.ofRows config rows) := by
  have wellFormed : ¬ Selector.Malformed query.selectors := by
    rw [selected]
    rintro (empty | ⟨-, combined⟩)
    · exact absurd empty nofun
    · exact combined rfl
  rw [run_eq_of_rooted wellFormed rooted, selected, duplicates]
  refine bind_eq_ok_iff.mpr ⟨rows, filtered, ?_⟩
  refine bind_eq_ok_iff.mpr ⟨_, Selector.mapM_project_wholeRow rows, ?_⟩
  exact congrArg Except.ok (Table.ofProjected_wholeRow rows)

/-- Selecting the whole row of every row gives a table with one cell for each row of the document's
table. Converted back, the cell is the row with each integer beyond the signed words replaced by the
nearest float and each text in an ISO layout by the canonical text of its value. It is the row
itself exactly if every integer of the row is a signed word and every such text is canonical. -/
theorem wholeRow_toNode (config : Config) {root : String} (wellFormed : document.WellFormed)
    (rooted : (Path.mk root).resolve .strict document = .ok table) :
    ∃ result, Query.run { root, selectors := [.wholeRow] } config document = .ok result ∧
      List.Forall₂
        (fun row cells => ∃ cell : Value, cells = [cell] ∧
          row.Rendered config.inferTemporal cell.toNode ∧
          (cell.toNode = row ↔ row.Preserved config.inferTemporal))
        table.leaves result.rows := by
  have unfiltered : filterRows { root, selectors := [.wholeRow] } config table = .ok table.leaves :=
    filterRows_unfiltered rfl table
  refine ⟨_, run_wholeRow rfl rfl rooted unfiltered, ?_⟩
  have rowWellFormed := Node.hereditary_wellFormed.rows wellFormed rooted
  rw [Table.ofRows, List.forall₂_map_right_iff]
  refine List.forall₂_same.mpr fun row member => ⟨_, rfl, ?_⟩
  rw [Value.toNode_ofNode config.inferTemporal (rowWellFormed row member)]
  exact ⟨Node.rendered_canonical config.inferTemporal row, Node.canonical_eq_iff row⟩

theorem wholeRow_keeps_nested :
    let document := Node.array [.array [.text "18:25:00"], .object [("born", .text "1982-11-30")]]
    ∃ result time person,
      Query.run { root := ".", selectors := [.wholeRow] } {} document = .ok result ∧
        result.rows = [[time], [person]] ∧ time.toNode = .text "18:25:00" ∧
        person.toNode = .object [("born", .text "1982-11-30")] := by
  intro document
  have wellFormed : document.WellFormed :=
    ⟨⟨trivial, trivial⟩, ⟨by decide, trivial, trivial⟩, trivial⟩
  have rooted : (Path.mk ".").resolve .strict document = .ok document := rfl
  obtain ⟨⟨headers, rows⟩, answered, each⟩ := wholeRow_toNode {} wellFormed rooted
  obtain ⟨_, _, ⟨time, rfl, -, keepsTime⟩, second, rfl⟩ := List.forall₂_cons_left_iff.mp each
  obtain ⟨_, _, ⟨person, rfl, -, keepsPerson⟩, last, rfl⟩ := List.forall₂_cons_left_iff.mp second
  obtain rfl := List.forall₂_nil_left_iff.mp last
  exact ⟨_, time, person, answered, rfl, keepsTime.mpr ((Node.canonical_eq_iff _).mp rfl),
    keepsPerson.mpr ((Node.canonical_eq_iff _).mp rfl)⟩

/-- A time without seconds comes back with seconds. -/
theorem wholeRow_completes_time :
    let document := Node.array [.text "18:25"]
    ∃ result cell, Query.run { root := ".", selectors := [.wholeRow] } {} document = .ok result ∧
      document.leaves = [.text "18:25"] ∧ result.rows = [[cell]] ∧
      cell.toNode = .text "18:25:00" ∧ cell.toNode ≠ .text "18:25" := by
  intro document
  refine ⟨_, _, rfl, rfl, rfl, rfl, ?_⟩
  intro same
  exact absurd (Node.text.inj same) (by decide)

end Query

end RowQuery
