import RowQuery.Proofs.Condition.Congruence
import RowQuery.Proofs.Table.Selection

/-! # What of a row is read

A path enters an object at its first segment and reads nothing else of it. Two rows that hold the
same at the entrances of all paths of a condition, or of a list of selected columns, are therefore
decided, or projected, alike, down to the failures (`RowQuery.evaluate_eq_of_agreeAt`). Elsewhere
fields may be added, removed or moved (`RowQuery.agreeAt_of_entries`).
-/

namespace RowQuery

/-- The fields at which paths enter a row: their first segments. -/
def Path.entrances (paths : List String) : List String :=
  paths.filterMap fun path => (Path.mk path).segments.head?

/-- Whether two rows hold the same, or both nothing, in every field at which a path enters. -/
def AgreeAt (paths : List String) (fields others : Fields Node) : Prop :=
  ∀ name ∈ Path.entrances paths, Fields.get? fields name = Fields.get? others name

variable {fields others : Fields Node} {paths : List String}

theorem AgreeAt.mem (agree : AgreeAt paths fields others) {path : String} (member : path ∈ paths) :
    AgreeAt [path] fields others := by
  intro name entrance
  obtain ⟨single, here, first⟩ := List.mem_filterMap.mp entrance
  obtain rfl := List.mem_singleton.mp here
  exact agree name (List.mem_filterMap.mpr ⟨single, member, first⟩)

/-- Of rows with distinct field names only the entries at the entrances matter, in any order. -/
theorem agreeAt_of_entries (distinct : (Fields.names fields).Nodup)
    (otherDistinct : (Fields.names others).Nodup)
    (same : ∀ field : String × Node, field.1 ∈ Path.entrances paths →
      (field ∈ fields ↔ field ∈ others)) : AgreeAt paths fields others := by
  intro name entrance
  apply Option.ext
  intro entry
  rw [Fields.get?_eq_some_iff distinct, Fields.get?_eq_some_iff otherDistinct]
  exact same (name, entry) entrance

namespace Path

variable {path : Path}

/-- Where a path enters two rows, they have the same field. -/
theorem exists_entrance (inner : path.isRoot = false)
    (agree : AgreeAt [path.complete] fields others) :
    ∃ first rest, path.segments = first :: rest ∧
      (Node.object fields).field? first = (Node.object others).field? first := by
  obtain ⟨first, rest, segments⟩ := exists_segments inner
  have enters : path.segments.head? = some first := by
    rw [segments, List.head?_cons]
  exact ⟨first, rest, segments,
    agree first (List.mem_filterMap.mpr ⟨_, List.mem_singleton.mpr rfl, enters⟩)⟩

theorem resolve_congr (absence : Absence) (inner : path.isRoot = false)
    (agree : AgreeAt [path.complete] fields others) :
    path.resolve absence (.object fields) = path.resolve absence (.object others) := by
  obtain ⟨first, rest, segments, same⟩ := exists_entrance inner agree
  have single : ∀ (row : Fields Node) (items : List Node), Node.object row ≠ .array items := nofun
  rw [resolve, resolve, segments, walk_field _ _ _ _ (single fields),
    walk_field _ _ _ _ (single others), same]

theorem collect_congr (inner : path.isRoot = false)
    (agree : AgreeAt [path.complete] fields others) :
    path.collect (.object fields) = path.collect (.object others) := by
  obtain ⟨first, rest, segments, same⟩ := exists_entrance inner agree
  have branches : branch path.complete first (.object fields) =
      branch path.complete first (.object others) := by
    rw [branch, branch, same]
  simp only [collect, segments, descend, Node.leaves, List.mapM_cons, branches]

end Path

theorem Expr.readsAlike_of_agreeAt {path : String} (config : Config)
    (inner : (Path.mk path).isRoot = false) (agree : AgreeAt [path] fields others) :
    ReadsAlike config (.object fields) config (.object others) path where
  column := by rw [value, value, columnValue, columnValue, Path.resolve_congr .strict inner agree]
  matching := fun mode => by
    rw [value_matching_eq, value_matching_eq, Path.collect_congr inner agree]

theorem SelectedColumn.entry_congr {column : SelectedColumn} (config : Config)
    (inner : (Path.mk column.path).isRoot = false)
    (agree : AgreeAt [column.path] fields others) :
    column.entry config (.object fields) = column.entry config (.object others) := by
  rw [entry, entry, Selector.columnCell, Selector.columnCell, Path.resolve_congr _ inner agree]

/-- **Only what is named is read.** Let none of the paths of a condition, or of a list of selected
columns, be a spelling of the root. On two rows that agree where these paths enter, the condition
has the same decision or the same failure, and the columns give the same projected row or the same
failure. Rows agree as soon as they have the same entries where the paths enter, in any order and
among any others. -/
theorem evaluate_eq_of_agreeAt (config : Config) (fields others : Fields Node) :
    (∀ condition : Expr, (∀ path ∈ condition.columns, (Path.mk path).isRoot = false) →
      AgreeAt condition.columns fields others →
      condition.holds config (.object fields) = condition.holds config (.object others)) ∧
    (∀ columns : List SelectedColumn,
      (∀ column ∈ columns, (Path.mk column.path).isRoot = false) →
      AgreeAt (columns.map SelectedColumn.path) fields others →
      Selector.project config (columns.map SelectedColumn.selector) (.object fields) =
        Selector.project config (columns.map SelectedColumn.selector) (.object others)) ∧
    (∀ paths : List String, (Fields.names fields).Nodup → (Fields.names others).Nodup →
      (∀ field : String × Node, field.1 ∈ Path.entrances paths →
        (field ∈ fields ↔ field ∈ others)) → AgreeAt paths fields others) := by
  refine ⟨fun condition inner agree => ?_, fun columns inner agree => ?_, fun paths => ?_⟩
  · apply Expr.holds_congr
    intro path member
    exact Expr.readsAlike_of_agreeAt config (inner path member) (agree.mem member)
  · have same : ∀ column ∈ columns,
        column.entry config (.object fields) = column.entry config (.object others) := by
      intro column member
      exact column.entry_congr config (inner column member)
        (agree.mem (List.mem_map_of_mem member))
    rw [Selector.project_columns, Selector.project_columns, Attempt.mapM_congr same]
  · exact agreeAt_of_entries

/-- Neither the place of a field nor a field that no path enters has a say. -/
theorem evaluate_eq_reordered :
    let one := Node.number (.ofInt64 1)
    let two := Node.number (.ofInt64 2)
    let condition := Expr.comparison (.matching .matchAny "a.b") .less (.column "c")
    let fields := [("a", .array [.object [("b", one)]]), ("c", two), ("d", .null)]
    let others := [("c", two), ("a", .array [.object [("b", one)]])]
    (∀ path ∈ condition.columns, (Path.mk path).isRoot = false) ∧
      AgreeAt condition.columns fields others ∧
      condition.holds {} (.object fields) = condition.holds {} (.object others) := by
  intro one two condition fields others
  have inner : ∀ path ∈ condition.columns, (Path.mk path).isRoot = false := by decide
  have agree : AgreeAt condition.columns fields others := by
    have entrances : Path.entrances condition.columns = ["a", "c"] := rfl
    intro name entrance
    rw [entrances, List.mem_pair] at entrance
    rcases entrance with rfl | rfl
    · rfl
    · rfl
  exact ⟨inner, agree, (evaluate_eq_of_agreeAt {} fields others).1 condition inner agree⟩

end RowQuery
