import RowQuery.Proofs.Fields
import RowQuery.Table.Cursor
import Mathlib.Data.List.Nodup

/-! # The layout of a table

The columns of a projected row keep distinct names through every insertion and every removal of a
value, so the headers that a table takes from its first row are distinct, and so they stay
(`RowQuery.Table.nodup_headers_build`). This is why the cells may be moved out of a projected row
one after the other (`RowQuery.ProjectedRow.takeEach_eq_map`), why a column is found under its
label, and why the JSON form of a row has every header once (`RowQuery.Table.laidOut_build`).
-/

namespace RowQuery

/-! ### Projected rows -/

namespace ProjectedRow

variable {row : ProjectedRow} {names : List String}

/-- What taking the values of several columns out of a row, one after the other, gives. -/
def takeEach (row : ProjectedRow) : List String → List (Option Value)
  | [] => []
  | name :: rest => (row.take name).1 :: takeEach (row.take name).2 rest

theorem take_fst (row : ProjectedRow) (name : String) : (row.take name).1 = row.get? name := by
  unfold take
  split
  · next value present => exact present.symm
  · next absent => exact absent.symm

theorem names_take (row : ProjectedRow) (name : String) :
    Fields.names (row.take name).2 = Fields.names row := by
  unfold take
  split
  · next value present => rw [Fields.names_put, if_pos (Fields.mem_names_of_get? present)]
  · rfl

theorem get?_take_of_ne {name other : String} (different : other ≠ name) :
    Fields.get? (row.take name).2 other = row.get? other := by
  unfold take
  split
  · rw [Fields.get?_put, if_neg different]
  · rfl

/-- Of distinct columns, taking one value out leaves the others to be taken. -/
theorem takeEach_eq_map (distinct : names.Nodup) : row.takeEach names = names.map row.get? := by
  induction names generalizing row with
  | nil => rfl
  | cons name rest ih =>
      obtain ⟨absent, distinct⟩ := List.nodup_cons.mp distinct
      rw [takeEach, take_fst, ih distinct, List.map_cons]
      refine congrArg (row.get? name :: ·) (List.map_congr_left fun other member => ?_)
      exact get?_take_of_ne fun same => absent (same ▸ member)

theorem nodup_names_step (distinct : (Fields.names row).Nodup) (step : Step) :
    (Fields.names (step.apply row)).Nodup := by
  cases step with
  | insert name value => exact Fields.nodup_names_put distinct name value
  | take name =>
      rw [Step.apply, names_take]
      exact distinct

theorem nodup_names_run (distinct : (Fields.names row).Nodup) (steps : List Step) :
    (Fields.names (row.run steps)).Nodup := by
  induction steps generalizing row with
  | nil => exact distinct
  | cons step rest ih => exact ih (nodup_names_step distinct step)

end ProjectedRow

namespace Table

variable {table : Table}

/-- Whether a table holds projected rows: a row of cells for each, under the columns of the first
one. -/
structure Holds (table : Table) (projected : List ProjectedRow) : Prop where
  empty : projected = [] → table.headers = [] ∧ table.rows = []
  headers : ∀ first, projected.head? = some first → table.headers = Fields.names first
  distinct : table.headers.Nodup
  rowwise : table.rows.length = projected.length
  width : ∀ row ∈ table.rows, row.length = table.headers.length
  /-- A cell is the value that its row holds under its header, or null. -/
  cell : ∀ (i j : Nat) (row : ProjectedRow) (header : String), projected[i]? = some row →
    table.headers[j]? = some header →
    table.rows[i]?.bind (·[j]?) = some ((row.get? header).getD .null)
  /-- The cells of a row are what taking them out header by header gives. -/
  moved : ∀ (i : Nat) (row : ProjectedRow), projected[i]? = some row →
    table.rows[i]? = some ((row.takeEach table.headers).map (·.getD .null))

/-- Whether every header of a table stands for one column. -/
structure Labelled (table : Table) : Prop where
  distinct : table.headers.Nodup
  /-- A column is found under its own label. -/
  found : ∀ (position : Option Nat) (j : Nat) (header : String),
    table.headers[j]? = some header → Cursor.findColumn ⟨table, position⟩ header = .ok j
  /-- A row as wide as the headers is written as an object that has every header once, in order. -/
  written : ∃ records, table.toNode = .array records ∧ records.length = table.rows.length ∧
    ∀ (i : Nat) (row : TableRow), table.rows[i]? = some row →
      row.length = table.headers.length →
      records[i]? = some (.object (table.headers.zip (row.map Value.toNode)))

/-! ### Laying out -/

theorem layOut_eq_takeEach {headers : List String} (distinct : headers.Nodup)
    (row : ProjectedRow) : layOut headers row = (row.takeEach headers).map (·.getD .null) := by
  rw [ProjectedRow.takeEach_eq_map distinct, List.map_map]
  rfl

theorem holds_ofProjected {projected : List ProjectedRow}
    (distinct : ∀ row ∈ projected, (Fields.names row).Nodup) :
    (ofProjected projected).Holds projected := by
  cases projected with
  | nil =>
      exact ⟨fun _ => ⟨rfl, rfl⟩, nofun, List.nodup_nil, rfl, List.forall_mem_nil _, nofun, nofun⟩
  | cons first rest =>
      have apart := distinct first List.mem_cons_self
      constructor
      · exact nofun
      · intro row head
        obtain rfl := Option.some.inj head
        rfl
      · exact apart
      · exact List.length_map _
      · intro row member
        obtain ⟨projected, -, rfl⟩ := List.mem_map.mp member
        exact List.length_map _
      · intro i j row header atRow atHeader
        have atHeader : (Fields.names first)[j]? = some header := atHeader
        rw [ofProjected, List.getElem?_map, atRow, Option.map_some, Option.bind_some, layOut,
          List.getElem?_map, atHeader, Option.map_some]
      · intro i row atRow
        rw [ofProjected, List.getElem?_map, atRow, Option.map_some, layOut_eq_takeEach apart]

/-! ### Assembling -/

theorem nodup_headers_step (distinct : table.headers.Nodup) (step : Step) :
    (step.apply table).headers.Nodup := by
  cases step with
  | header name =>
      rw [Step.apply, addHeader]
      split
      · exact distinct
      · next fresh =>
          rw [← List.concat_eq_append]
          exact distinct.concat fresh
  | row cells => exact distinct
  | distinct => exact distinct

theorem nodup_headers_build (distinct : table.headers.Nodup) (steps : List Step) :
    (table.build steps).headers.Nodup := by
  induction steps generalizing table with
  | nil => exact distinct
  | cons step rest ih => exact ih (nodup_headers_step distinct step)

theorem findColumn?_of_nodup (distinct : table.headers.Nodup) {j : Nat} {header : String}
    (present : table.headers[j]? = some header) : table.findColumn? header = some j := by
  obtain ⟨below, rfl⟩ := List.getElem?_eq_some_iff.mp present
  rw [findColumn?, List.findIdx?_eq_some_iff_getElem]
  refine ⟨below, decide_eq_true rfl, fun earlier before => ?_⟩
  intro same
  exact Nat.ne_of_lt before (List.Nodup.getElem_inj_iff distinct |>.mp (of_decide_eq_true same))

theorem recordNode_of_nodup (distinct : table.headers.Nodup) {row : TableRow}
    (wide : row.length = table.headers.length) :
    table.recordNode row = .object (table.headers.zip (row.map Value.toNode)) := by
  have names : Fields.names (table.headers.zip (Value.toNodes row)) = table.headers := by
    have narrow : table.headers.length ≤ (row.map Value.toNode).length := by
      rw [List.length_map]
      exact Nat.le_of_eq wide.symm
    rw [Fields.names, Value.toNodes_eq_map]
    exact List.map_fst_zip narrow
  rw [recordNode, Fields.ofList_of_nodup (names.symm ▸ distinct), Value.toNodes_eq_map]

theorem labelled_of_nodup (distinct : table.headers.Nodup) : table.Labelled where
  distinct := distinct
  found := by
    intro position j header present
    rw [Cursor.findColumn, findColumn?_of_nodup distinct present]
  written := by
    refine ⟨_, rfl, List.length_map _, fun i row present wide => ?_⟩
    rw [List.getElem?_map, present, Option.map_some, recordNode_of_nodup distinct wide]

/-- **The layout of a table.** The table of projected rows, each of which is built from an empty row
by insertions and removals of values, holds these rows; and after any further steps of assembly
every header still stands for one column. -/
theorem laidOut_build (histories : List (List ProjectedRow.Step)) :
    let projected := histories.map (ProjectedRow.run [])
    (ofProjected projected).Holds projected ∧
      ∀ steps : List Step, ((ofProjected projected).build steps).Labelled := by
  intro projected
  have distinct : ∀ row ∈ projected, (Fields.names row).Nodup := by
    intro row member
    obtain ⟨steps, -, rfl⟩ := List.mem_map.mp member
    have empty : (Fields.names ([] : ProjectedRow)).Nodup := List.nodup_nil
    exact ProjectedRow.nodup_names_run empty steps
  have holds := holds_ofProjected distinct
  exact ⟨holds, fun steps => labelled_of_nodup (nodup_headers_build holds.distinct steps)⟩

end Table

end RowQuery
