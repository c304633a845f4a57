import RowQuery.Proofs.Evaluation.Rows
import RowQuery.Proofs.Path.Failures
import RowQuery.Proofs.Table.Selection

/-! # The stages of a query

`RowQuery.Query.Staged` says what the answer of a query is: the list of selectors is judged first,
then the root path, then the condition on every row, then the projection of every kept row, and the
first stage that fails gives its failure. `RowQuery.Query.Tabulates` says what the table of an
answer holds. Every query is answered so (`RowQuery.Query.run_staged`).
-/

namespace RowQuery.Query

open Attempt

/-- The table that a query without duplicate elimination makes of its kept rows. -/
structure Tabulates (query : Query) (config : Config) (rows : List Node) (result : Table) :
    Prop where
  /-- One row of the table for each kept row, in order. -/
  rowwise : List.Forall₂
    (fun row cells => ∃ projected, Selector.project config query.selectors row = .ok projected ∧
      cells = Table.layOut result.headers projected) rows result.rows
  headerless : rows = [] → result.headers = []
  /-- Columns give the table their names, each where it appears first. -/
  named : ∀ columns : List SelectedColumn, query.selectors = columns.map SelectedColumn.selector →
    rows ≠ [] → result.headers = (columns.map SelectedColumn.name).eraseDups
  /-- A cell holds the value at the path of the last column with the name of its header. -/
  filled : ∀ columns : List SelectedColumn, query.selectors = columns.map SelectedColumn.selector →
    ∀ (i j : Nat) (row : Node) (header : String),
      rows[i]? = some row → result.headers[j]? = some header →
      ∃ before column after node, columns = before ++ column :: after ∧ column.name = header ∧
        (∀ later ∈ after, later.name ≠ header) ∧
        (Path.mk column.path).resolve (Selector.absence config) row = .ok node ∧
        result.rows[i]?.bind (·[j]?) = some (Value.ofNode config.inferTemporal node)

/-- The answer of a query to a document, by the first stage that decides it. -/
structure Staged (query : Query) (config : Config) (document : Node)
    (answer : Except QueryError Table) : Prop where
  /-- A malformed list of selectors is refused, whatever the document is. -/
  refused : Selector.Malformed query.selectors →
    ∃ reason, answer = .error (.invalidProjection reason)
  /-- Else a root path that leads nowhere is reported. -/
  unrooted : ¬ Selector.Malformed query.selectors →
    ∀ failure, (Path.mk query.root).resolve .strict document = .error failure →
      Path.NotFound failure ∧ answer = .error failure
  /-- Else the condition fails as on the first row where it does. -/
  undecided : ¬ Selector.Malformed query.selectors →
    ∀ table, (Path.mk query.root).resolve .strict document = .ok table →
      (∃ row ∈ table.leaves, Fails (query.keeps config row)) →
      ∃ failure, FirstFailure (query.keeps config) table.leaves failure ∧ answer = .error failure
  /-- Else the projection fails as on the first kept row where it does. -/
  unprojected : ¬ Selector.Malformed query.selectors →
    ∀ table, (Path.mk query.root).resolve .strict document = .ok table →
      (∀ row ∈ table.leaves, Succeeds (query.keeps config row)) →
      (∃ row ∈ query.kept config table, Fails (Selector.project config query.selectors row)) →
      ∃ failure, FirstFailure (Selector.project config query.selectors) (query.kept config table)
        failure ∧ answer = .error failure
  /-- Else there is a table. -/
  answered : ¬ Selector.Malformed query.selectors →
    ∀ table, (Path.mk query.root).resolve .strict document = .ok table →
      (∀ row ∈ table.leaves, Succeeds (query.keeps config row)) →
      (∀ row ∈ query.kept config table,
        Succeeds (Selector.project config query.selectors row)) →
      ∃ result, answer = .ok result ∧
        (query.distinct = false → query.Tabulates config (query.kept config table) result)

variable {query : Query} {config : Config} {document table : Node}

/-! ### Tables of projected rows -/

theorem rows_ofProjected (projected : List ProjectedRow) :
    (Table.ofProjected projected).rows =
      projected.map (Table.layOut (Table.ofProjected projected).headers) := by
  cases projected with
  | nil => rfl
  | cons first rest => rfl

/-- The names of the columns that a list of columns gives a row. -/
theorem names_of_project {columns : List SelectedColumn} {row : Node} {projected : ProjectedRow}
    (given : Selector.project config (columns.map SelectedColumn.selector) row = .ok projected) :
    Fields.names projected = (columns.map SelectedColumn.name).eraseDups := by
  rw [Selector.project_columns] at given
  obtain ⟨entries, found, rfl⟩ := map_eq_ok_iff.mp given
  rw [Fields.names_ofList, SelectedColumn.names_of_entries found]

/-- The table of the projections of rows is the table of these rows. -/
theorem tabulates_ofProjected {rows : List Node} {projected : List ProjectedRow}
    (given : rows.mapM (Selector.project config query.selectors) = .ok projected) :
    query.Tabulates config rows (Table.ofProjected projected) := by
  have each := mapM_eq_ok_iff.mp given
  have headers (columns : List SelectedColumn)
      (selected : query.selectors = columns.map SelectedColumn.selector) (present : rows ≠ []) :
      (Table.ofProjected projected).headers = (columns.map SelectedColumn.name).eraseDups := by
    cases each with
    | nil => exact absurd rfl present
    | cons first rest => exact names_of_project (selected ▸ first)
  constructor
  · rw [rows_ofProjected, List.forall₂_map_right_iff]
    refine each.imp ?_
    intro row cells projects
    exact ⟨cells, projects, rfl⟩
  · intro empty
    subst empty
    cases each with
    | nil => rfl
  · exact headers
  · intro columns selected i j row header atRow atHeader
    have present : rows ≠ [] := List.ne_nil_of_mem (List.mem_of_getElem? atRow)
    have named : header ∈ columns.map SelectedColumn.name := by
      rw [← List.mem_eraseDups, ← headers columns selected present]
      exact List.mem_of_getElem? atHeader
    obtain ⟨before, column, after, rfl, rfl, last⟩ := Fields.exists_last SelectedColumn.name named
    obtain ⟨cells, atCells, projects⟩ := getElem?_of_mapM given atRow
    rw [selected, Selector.project_columns] at projects
    obtain ⟨entries, found, rfl⟩ := map_eq_ok_iff.mp projects
    obtain ⟨node, resolved, lookup⟩ := SelectedColumn.get?_of_last found last
    refine ⟨before, column, after, node, rfl, rfl, last, resolved, ?_⟩
    rw [rows_ofProjected, List.getElem?_map, atCells, Option.map_some, Option.bind_some,
      Table.layOut, List.getElem?_map, atHeader, Option.map_some, lookup, Option.getD_some]

/-! ### Running a query -/

/-- A query whose selectors and root path are in order filters, projects and lays out. -/
theorem run_eq_of_rooted (wellFormed : ¬ Selector.Malformed query.selectors)
    (rooted : (Path.mk query.root).resolve .strict document = .ok table) :
    query.run config document = do
      let rows ← query.filterRows config table
      let projected ← rows.mapM (Selector.project config query.selectors)
      let result := Table.ofProjected projected
      return if query.distinct then result.distinct else result := by
  rw [run, Selector.check_wellFormed wellFormed, rooted]
  rfl

theorem run_eq_of_decided (wellFormed : ¬ Selector.Malformed query.selectors)
    (rooted : (Path.mk query.root).resolve .strict document = .ok table)
    (decided : ∀ row ∈ table.leaves, Succeeds (query.keeps config row)) :
    query.run config document = do
      let projected ← (query.kept config table).mapM (Selector.project config query.selectors)
      let result := Table.ofProjected projected
      return if query.distinct then result.distinct else result := by
  rw [run_eq_of_rooted wellFormed rooted, filterRows_eq_ok decided]
  rfl

/-- Every query is answered stage by stage. -/
theorem run_staged (query : Query) (config : Config) (document : Node) :
    query.Staged config document (query.run config document) := by
  constructor
  · intro malformed
    obtain ⟨reason, refused⟩ := Selector.check_malformed malformed
    refine ⟨reason, ?_⟩
    rw [run, refused]
    rfl
  · intro wellFormed failure unrooted
    refine ⟨Path.resolve_failsOnly .strict ⟨query.root⟩ document failure unrooted, ?_⟩
    rw [run, Selector.check_wellFormed wellFormed, unrooted]
    rfl
  · intro wellFormed table rooted undecided
    obtain ⟨failure, first⟩ := exists_firstFailure_iff.mpr undecided
    refine ⟨failure, first, ?_⟩
    rw [run_eq_of_rooted wellFormed rooted, filterRows_eq_error_iff.mpr first]
    rfl
  · intro wellFormed table rooted decided unprojected
    obtain ⟨failure, first⟩ := exists_firstFailure_iff.mpr unprojected
    refine ⟨failure, first, ?_⟩
    rw [run_eq_of_decided wellFormed rooted decided]
    exact bind_eq_error_iff.mpr (.inl (mapM_eq_error_iff.mpr first))
  · intro wellFormed table rooted decided projected
    obtain ⟨projections, given⟩ := succeeds_mapM_iff.mpr projected
    have answered : query.run config document = .ok
        (if query.distinct then (Table.ofProjected projections).distinct
          else Table.ofProjected projections) := by
      rw [run_eq_of_decided wellFormed rooted decided]
      exact bind_eq_ok_iff.mpr ⟨projections, given, rfl⟩
    refine ⟨_, answered, ?_⟩
    intro duplicates
    rw [duplicates]
    exact tabulates_ofProjected given

end RowQuery.Query
