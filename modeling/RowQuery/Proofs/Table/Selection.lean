import RowQuery.Proofs.Attempts
import RowQuery.Proofs.Fields
import RowQuery.Table.Selection

/-! # Selected columns

A list of selectors is refused exactly if it is malformed (`RowQuery.Selector.check_malformed`,
`RowQuery.Selector.check_wellFormed`). A list of columns projects a row to one named value for each
column (`RowQuery.Selector.project_columns`), so that of several columns with one name the last one
counts (`RowQuery.SelectedColumn.get?_of_last`).
-/

namespace RowQuery

open Attempt

namespace Selector

/-- Whether a list of selectors is empty or combines the whole row with anything else. -/
def Malformed (selectors : List Selector) : Prop :=
  selectors = [] ∨ .wholeRow ∈ selectors ∧ selectors ≠ [.wholeRow]

theorem any_isWholeRow {selectors : List Selector} :
    selectors.any isWholeRow = true ↔ .wholeRow ∈ selectors := by
  rw [List.any_eq_true]
  constructor
  · intro found
    obtain ⟨selector, member, whole⟩ := found
    cases selector with
    | wholeRow => exact member
    | _ => exact absurd whole nofun
  · intro member
    exact ⟨.wholeRow, member, rfl⟩

theorem check_malformed {selectors : List Selector} (malformed : Malformed selectors) :
    ∃ reason, check selectors = .error (.invalidProjection reason) := by
  rcases malformed with rfl | ⟨member, combined⟩
  · exact ⟨_, rfl⟩
  · have several : 1 < selectors.length := by
      by_contra few
      obtain ⟨selector, rfl⟩ := List.length_eq_one_iff.mp
        (Nat.le_antisymm (Nat.le_of_not_lt few) (List.length_pos_of_mem member))
      exact combined (congrArg ([·]) (List.mem_singleton.mp member).symm)
    have present : selectors.isEmpty = false := List.isEmpty_eq_false_iff_exists_mem.mpr ⟨_, member⟩
    refine ⟨"Selectors '.' cannot be combined with anything else", ?_⟩
    simp only [check, present, any_isWholeRow.mpr member, several, decide_true, Bool.and_self,
      Bool.false_eq_true, ↓reduceIte]

theorem check_wellFormed {selectors : List Selector} (wellFormed : ¬ Malformed selectors) :
    check selectors = .ok () := by
  rw [Malformed, not_or, not_and_not_right] at wellFormed
  obtain ⟨present, alone⟩ := wellFormed
  have combined : (selectors.any isWholeRow && decide (1 < selectors.length)) = false := by
    rw [Bool.and_eq_false_iff]
    by_cases member : .wholeRow ∈ selectors
    · rw [alone member]
      exact .inr rfl
    · exact .inl (Bool.eq_false_iff.mpr fun found => member (any_isWholeRow.mp found))
  rw [check, if_neg (by rwa [List.isEmpty_iff]), if_neg (by rw [combined]; exact nofun)]

theorem columnCell_eq_ok_iff {config : Config} {row : Node} {name : String} {value : Value} :
    columnCell config row name = .ok value ↔
      ∃ node, (Path.mk name).resolve (absence config) row = .ok node ∧
        value = .ofNode config.inferTemporal node := by
  unfold columnCell
  split
  · next node resolved => simp only [resolved, Except.ok.injEq, exists_eq_left', eq_comm]
  · next failure fails => simp only [fails, reduceCtorEq, false_and, exists_false]

end Selector

/-- A selected column: the path that it reads and the alias that it may be given back under. -/
structure SelectedColumn where
  path : String
  label? : Option String

namespace SelectedColumn

variable {config : Config} {row : Node}

def selector (column : SelectedColumn) : Selector :=
  .expression (.column column.path) column.label?

/-- The name that a column is given back under: its alias, else its path. -/
def name (column : SelectedColumn) : String :=
  column.label?.getD column.path

/-- The named value that a column gives a row. -/
def entry (config : Config) (row : Node) (column : SelectedColumn) :
    Except QueryError (String × Value) :=
  (Selector.columnCell config row column.path).map (column.name, ·)

theorem entry_eq_ok {column : SelectedColumn} {named : String × Value}
    (found : column.entry config row = .ok named) :
    ∃ node, (Path.mk column.path).resolve (Selector.absence config) row = .ok node ∧
      named = (column.name, .ofNode config.inferTemporal node) := by
  obtain ⟨value, cell, rfl⟩ := map_eq_ok_iff.mp found
  obtain ⟨node, resolved, rfl⟩ := Selector.columnCell_eq_ok_iff.mp cell
  exact ⟨node, resolved, rfl⟩

theorem names_of_entries {columns : List SelectedColumn} {entries : List (String × Value)}
    (found : columns.mapM (entry config row) = .ok entries) :
    entries.map Prod.fst = columns.map name := by
  have each := mapM_eq_ok_iff.mp found
  clear found
  induction each with
  | nil => rfl
  | cons given _ ih =>
      obtain ⟨node, -, rfl⟩ := entry_eq_ok given
      rw [List.map_cons, List.map_cons, ih]

/-- Under the name of a column that no later column shares, a row gets the value at its path. -/
theorem get?_of_last {before after : List SelectedColumn} {column : SelectedColumn}
    {entries : List (String × Value)}
    (found : (before ++ column :: after).mapM (entry config row) = .ok entries)
    (last : ∀ later ∈ after, later.name ≠ column.name) :
    ∃ node, (Path.mk column.path).resolve (Selector.absence config) row = .ok node ∧
      (Fields.ofList entries).get? column.name = some (.ofNode config.inferTemporal node) := by
  rw [List.mapM_append] at found
  obtain ⟨first, firstFound, found⟩ := bind_eq_ok_iff.mp found
  obtain ⟨rest, restFound, joined⟩ := bind_eq_ok_iff.mp found
  obtain rfl := pure_eq_ok_iff.mp joined
  rw [List.mapM_cons] at restFound
  obtain ⟨named, given, found⟩ := bind_eq_ok_iff.mp restFound
  obtain ⟨others, othersFound, joined⟩ := bind_eq_ok_iff.mp found
  obtain rfl := pure_eq_ok_iff.mp joined
  obtain ⟨node, resolved, rfl⟩ := entry_eq_ok given
  refine ⟨node, resolved, Fields.get?_ofList_of_last _ ?_⟩
  rw [names_of_entries othersFound]
  intro shared
  obtain ⟨later, member, same⟩ := List.mem_map.mp shared
  exact last later member same

end SelectedColumn

namespace Selector

/-- A list of columns gives a row one named value for each column, in order. -/
theorem project_columns (config : Config) (columns : List SelectedColumn) (row : Node) :
    project config (columns.map SelectedColumn.selector) row =
      (columns.mapM (SelectedColumn.entry config row)).map Fields.ofList := by
  have single (column : SelectedColumn) :
      cells config row column.selector = (column.entry config row).map ([·]) := by
    have opened : cells config row column.selector =
        (columnCell config row column.path).map fun value => [(column.name, value)] := rfl
    rw [opened, SelectedColumn.entry]
    cases columnCell config row column.path with
    | ok value => rfl
    | error failure => rfl
  have each : (columns.map SelectedColumn.selector).mapM (cells config row) =
      (columns.mapM (SelectedColumn.entry config row)).map (List.map ([·])) := by
    rw [List.mapM_map, ← mapM_map_each]
    exact congrArg (columns.mapM ·) (funext single)
  rw [project, each]
  cases columns.mapM (SelectedColumn.entry config row) with
  | error failure => rfl
  | ok entries =>
      have joined : (entries.map ([·])).flatten = entries := by
        rw [← List.flatMap_def, List.flatMap_singleton']
      exact congrArg (fun entries => Except.ok (Fields.ofList entries)) joined

end Selector

end RowQuery
