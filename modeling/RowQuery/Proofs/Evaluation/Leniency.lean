import RowQuery.Proofs.Condition.Congruence
import RowQuery.Proofs.Evaluation.Stages
import RowQuery.Proofs.Path.Leniency

/-! # Strict and lenient queries

The switch `strictRows` only matters for selected columns. A query that is answered strictly is also
answered leniently, by a table with the same headers and rows whose cells may hold more blank items
inside arrays (`RowQuery.Query.run_lenient`). The two tables are the same if every selected path is
even on every kept row; `RowQuery.Query.lenient_adds_null` is a query where one is not.
-/

namespace RowQuery

open Attempt

/-- Whether the second value is that of the first one's node with blank items put into arrays. -/
def Value.Padded (config : Config) (value other : Value) : Prop :=
  ∃ node padded : Node, node.Padded padded ∧ value = .ofNode config.inferTemporal node ∧
    other = .ofNode config.inferTemporal padded

variable {config : Config} {related : Value → Value → Prop}

namespace Selector

/-- Whether the strict value of a path, if there is one, is related to the lenient value. -/
def Matched (config : Config) (related : Value → Value → Prop) (row : Node) (path : String) :
    Prop :=
  ∀ node, (Path.mk path).resolve .strict row = .ok node →
    ∃ other, (Path.mk path).resolve .lenient row = .ok other ∧
      related (.ofNode config.inferTemporal node) (.ofNode config.inferTemporal other)

theorem matched_padded (config : Config) (row : Node) (path : String) :
    Matched config (Value.Padded config) row path := by
  intro node strict
  obtain ⟨other, lenient⟩ := Path.succeeds_walk_lenient path (Path.mk path).segments row
  exact ⟨other, lenient, node, other, Path.padded_of_walk strict lenient, rfl, rfl⟩

theorem matched_of_even {row : Node} {path : String}
    (even : Path.Even (Path.mk path).segments row) : Matched config Eq row path :=
  fun node strict => ⟨node, (Path.walk_lenient_eq_iff strict).mpr even, rfl⟩

theorem related_cells
    (reflexive : ∀ node, related (.ofNode config.inferTemporal node)
      (.ofNode config.inferTemporal node))
    {row : Node} {selector : Selector} {named : List (String × Value)}
    (matched : ∀ path label?, selector = .expression (.column path) label? →
      Matched config related row path)
    (strict : cells { config with strictRows := true } row selector = .ok named) :
    ∃ others, cells { config with strictRows := false } row selector = .ok others ∧
      Fields.Related related named others := by
  cases selector with
  | wholeRow =>
      obtain rfl := Except.ok.inj strict
      exact ⟨_, rfl, .cons ⟨rfl, reflexive row⟩ .nil⟩
  | allColumns =>
      refine ⟨named, strict, ?_⟩
      cases row with
      | object fields =>
          obtain rfl := Except.ok.inj strict
          rw [Value.ofFields_eq_map, Fields.Related, List.forall₂_map_left_iff,
            List.forall₂_map_right_iff, List.forall₂_same]
          exact fun field _ => ⟨rfl, reflexive field.2⟩
      | _ =>
          obtain rfl := Except.ok.inj strict
          exact .nil
  | tableWildcard table => exact absurd strict nofun
  | expression shown label? =>
      cases shown with
      | column path =>
          obtain ⟨value, cell, rfl⟩ := map_eq_ok_iff.mp strict
          obtain ⟨node, resolved, rfl⟩ := columnCell_eq_ok_iff.mp cell
          obtain ⟨other, lenient, close⟩ := matched path label? rfl node resolved
          have found : columnCell { config with strictRows := false } row path =
              .ok (.ofNode config.inferTemporal other) :=
            columnCell_eq_ok_iff.mpr ⟨other, lenient, rfl⟩
          exact ⟨_, map_eq_ok_iff.mpr ⟨_, found, rfl⟩, .cons ⟨rfl, close⟩ .nil⟩
      | _ => exact absurd strict nofun

theorem related_projections
    (reflexive : ∀ node, related (.ofNode config.inferTemporal node)
      (.ofNode config.inferTemporal node))
    {rows : List Node} {selectors : List Selector} {projected : List ProjectedRow}
    (matched : ∀ row ∈ rows, ∀ path label?, .expression (.column path) label? ∈ selectors →
      Matched config related row path)
    (strict : rows.mapM (project { config with strictRows := true } selectors) = .ok projected) :
    ∃ others, rows.mapM (project { config with strictRows := false } selectors) = .ok others ∧
      List.Forall₂ (Fields.Related related) projected others := by
  refine mapM_related strict fun row member found given => ?_
  obtain ⟨named, traversed, assembled⟩ := bind_eq_ok_iff.mp given
  obtain rfl := pure_eq_ok_iff.mp assembled
  obtain ⟨others, lenient, each⟩ := mapM_related traversed fun selector selected _ =>
    related_cells reflexive fun path label? same => matched row member path label? (same ▸ selected)
  have close := Fields.Related.ofList (List.rel_flatten each)
  exact ⟨_, bind_eq_ok_iff.mpr ⟨others, lenient, rfl⟩, close⟩

end Selector

theorem Table.related_ofProjected (null : related .null .null)
    {projected others : List ProjectedRow}
    (each : List.Forall₂ (Fields.Related related) projected others) :
    (ofProjected others).headers = (ofProjected projected).headers ∧
      List.Forall₂ (List.Forall₂ related) (ofProjected projected).rows
        (ofProjected others).rows := by
  have headers : (ofProjected others).headers = (ofProjected projected).headers := by
    cases each with
    | nil => rfl
    | cons first _ => exact first.names.symm
  refine ⟨headers, ?_⟩
  rw [Query.rows_ofProjected, Query.rows_ofProjected, headers, List.forall₂_map_left_iff,
    List.forall₂_map_right_iff]
  refine each.imp fun row other same => ?_
  rw [layOut, layOut, List.forall₂_map_left_iff, List.forall₂_map_right_iff, List.forall₂_same]
  exact fun name _ => same.getD null name

namespace Query

theorem filterRows_withStrictness (query : Query) (strict : Bool) (table : Node) :
    query.filterRows { config with strictRows := strict } table =
      query.filterRows config table := by
  have keeps : query.keeps { config with strictRows := strict } = query.keeps config := by
    funext row
    unfold Query.keeps
    split
    · rfl
    · exact Expr.holds_withStrictness strict _
  exact filterRows_congr keeps table

/-- Whether every selected path is even on every row that a query keeps. -/
def EvenlyRead (query : Query) (config : Config) (document : Node) : Prop :=
  ∀ table rows, (Path.mk query.root).resolve .strict document = .ok table →
    query.filterRows config table = .ok rows →
    ∀ row ∈ rows, ∀ path label?, .expression (.column path) label? ∈ query.selectors →
      Path.Even (Path.mk path).segments row

/-- **Lenient answers.** A query that is answered strictly is answered leniently too, by a table
with the same headers. Without duplicate elimination the cells of the two tables differ at most by
blank items inside arrays, and not at all if every selected path is even on every kept row. In this
case the tables are the same with duplicate elimination as well. -/
theorem run_lenient (config : Config) {query : Query} {document : Node} {result : Table}
    (answered : query.run { config with strictRows := true } document = .ok result) :
    ∃ other, query.run { config with strictRows := false } document = .ok other ∧
      other.headers = result.headers ∧
      (query.distinct = false →
        List.Forall₂ (List.Forall₂ (Value.Padded config)) result.rows other.rows) ∧
      (query.EvenlyRead config document → other = result) := by
  obtain ⟨_, checked, answered⟩ := bind_eq_ok_iff.mp answered
  obtain ⟨table, rooted, answered⟩ := bind_eq_ok_iff.mp answered
  obtain ⟨rows, filtered, answered⟩ := bind_eq_ok_iff.mp answered
  obtain ⟨projected, strict, answered⟩ := bind_eq_ok_iff.mp answered
  obtain rfl := pure_eq_ok_iff.mp answered
  rw [filterRows_withStrictness] at filtered
  obtain ⟨others, lenient, padded⟩ := Selector.related_projections
    (fun node => ⟨node, node, .same node, rfl, rfl⟩)
    (fun row _ path _ _ => Selector.matched_padded config row path) strict
  have rerun : query.run { config with strictRows := false } document =
      .ok (if query.distinct then (Table.ofProjected others).distinct
        else Table.ofProjected others) := by
    refine bind_eq_ok_iff.mpr ⟨_, checked, bind_eq_ok_iff.mpr ⟨table, rooted,
      bind_eq_ok_iff.mpr ⟨rows, ?_, bind_eq_ok_iff.mpr ⟨others, lenient, rfl⟩⟩⟩⟩
    rwa [filterRows_withStrictness]
  obtain ⟨headers, cells⟩ := Table.related_ofProjected
    ⟨.null, .null, .same .null, rfl, rfl⟩ padded
  refine ⟨_, rerun, ?_, ?_, ?_⟩
  · split
    · exact headers
    · exact headers
  · intro duplicates
    simpa only [duplicates, Bool.false_eq_true, ↓reduceIte] using cells
  · intro even
    obtain ⟨same, again, equal⟩ := Selector.related_projections (fun _ => rfl)
      (fun row member path label? selected => Selector.matched_of_even
        (even table rows rooted filtered row member path label? selected)) strict
    rw [Except.ok.inj (again.symm.trans lenient)] at equal
    have unchanged : projected = others := by
      rw [← List.forall₂_eq_eq_eq]
      exact equal.imp fun _ _ row => row.eq
    rw [unchanged]

/-- An item without the first field is passed over under both settings. -/
theorem lenient_keeps_even :
    let document := Node.array [.object [("a", .array [
      .object [("b", .object [("c", .number (.ofInt64 1))])], .object [],
      .object [("b", .object [("c", .null)])]])]]
    let query : Query := { root := ".", selectors := [.column "a.b.c"] }
    let result : Table := { headers := ["a.b.c"], rows := [[.list [.integer 1, .null]]] }
    query.run {} document = .ok result ∧ query.EvenlyRead {} document ∧
      query.run { strictRows := false } document = .ok result := by
  intro document query result
  have answered : query.run {} document = .ok result := rfl
  have even : query.EvenlyRead {} document := by
    intro table rows rooted filtered row member path label? selected
    obtain rfl := Except.ok.inj rooted
    obtain rfl := Except.ok.inj filtered
    obtain rfl := List.mem_singleton.mp member
    obtain ⟨shown, -⟩ := Selector.expression.inj (List.mem_singleton.mp selected)
    obtain rfl := Expr.column.inj shown
    decide
  obtain ⟨other, lenient, -, -, same⟩ := run_lenient {} answered
  exact ⟨answered, even, same even ▸ lenient⟩

/-- An item that has the first field but not the last one is passed over strictly and read as null
leniently. -/
theorem lenient_adds_null :
    let document := Node.array [.object [("a", .array [
      .object [("b", .object [("c", .number (.ofInt64 1))])], .object [("b", .object [])]])]]
    let query : Query := { root := ".", selectors := [.column "a.b.c"] }
    query.run {} document = .ok { headers := ["a.b.c"], rows := [[.list [.integer 1]]] } ∧
      query.run { strictRows := false } document =
        .ok { headers := ["a.b.c"], rows := [[.list [.integer 1, .null]]] } :=
  ⟨rfl, rfl⟩

end Query

end RowQuery
