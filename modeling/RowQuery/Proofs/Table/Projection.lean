import RowQuery.Proofs.Path.Branches
import RowQuery.Proofs.Table.Selection

/-! # Projected rows

The selectors of a query give a row named values, one selector after the other
(`RowQuery.Selector.Gives`). The projected row keeps each name where it is given first and the value
that it is given last (`RowQuery.ProjectedRow.Settles`), however often the fields of the row, paths
and aliases share a name. The projection fails exactly if a selector is refused
(`RowQuery.Selector.Refuses`), and as the first one that is
(`RowQuery.Selector.project_settles`).
-/

namespace RowQuery

open Attempt

/-! ### Names in their first place, values given last -/

/-- Whether a row has the names of written entries, each once, in the order of their first
appearance, and under each name the value that is written last. -/
structure ProjectedRow.Settles (projected : ProjectedRow) (written : List (String × Value)) :
    Prop where
  names : Fields.names projected = (written.map Prod.fst).eraseDups
  last : ∀ before name value after, written = before ++ (name, value) :: after →
    name ∉ after.map Prod.fst → Fields.get? projected name = some value

theorem ProjectedRow.settles_iff {projected : ProjectedRow} {written : List (String × Value)} :
    projected.Settles written ↔ projected = Fields.ofList written := by
  constructor
  · intro settles
    have named := settles.names.trans (Fields.names_ofList written).symm
    refine Fields.eq_of_names_of_get? (named ▸ Fields.nodup_names_ofList written) named ?_
    intro name member
    rw [settles.names, List.mem_eraseDups] at member
    obtain ⟨before, ⟨label, value⟩, after, rfl, rfl, last⟩ := Fields.exists_last Prod.fst member
    have unshared : label ∉ after.map Prod.fst := by
      rw [List.mem_map, not_exists]
      exact fun later both => last later both.1 both.2
    rw [settles.last before label value after rfl unshared,
      Fields.get?_ofList_of_last value unshared]
  · rintro rfl
    refine ⟨Fields.names_ofList written, ?_⟩
    rintro before name value after rfl last
    exact Fields.get?_ofList_of_last value last

/-! ### Single selectors -/

namespace Selector

/-- Whether a selector gives a row these named values. -/
inductive Gives (config : Config) (row : Node) : Selector → List (String × Value) → Prop where
  /-- The entire row is given under the root path. -/
  | wholeRow : Gives config row .wholeRow [(rootPath, .ofNode config.inferTemporal row)]
  /-- An object gives its fields in document order. -/
  | fields {fields : List (String × Node)} (isObject : row = .object fields) :
      Gives config row .allColumns
        (fields.map fun field => (field.1, .ofNode config.inferTemporal field.2))
  /-- A row that is no object has no fields to give. -/
  | nothing (noObject : ∀ fields, row ≠ .object fields) : Gives config row .allColumns []
  /-- A column is given under its alias, else under its path. -/
  | column {name : String} {label? : Option String} {node : Node}
      (resolved : (Path.mk name).resolve (absence config) row = .ok node) :
      Gives config row (.expression (.column name) label?)
        [(label?.getD name, .ofNode config.inferTemporal node)]

/-- Whether a selector is refused for a row with this failure. -/
inductive Refuses (config : Config) (row : Node) : Selector → QueryError → Prop where
  | tableWildcard (table : String) :
      Refuses config row (.tableWildcard table)
        (.unsupportedExpression ("Wildcard select (" ++ table ++ ".*)"))
  | function (name : String) (args : List Expr) (label? : Option String) :
      Refuses config row (.expression (.function name args) label?)
        (.unsupportedExpression
          ("Function select (" ++ (Expr.function name args).display ++ ")"))
  | construct {shown : Expr} (label? : Option String) (noColumn : ∀ name, shown ≠ .column name)
      (noFunction : ∀ name args, shown ≠ .function name args) :
      Refuses config row (.expression shown label?)
        (.unsupportedExpression (shown.constructName ++ " in select"))
  /-- An absent column is refused only where selected columns must be there. -/
  | missing {name : String} (label? : Option String) (strict : config.strictRows = true)
      (unresolved : Fails ((Path.mk name).resolve .strict row)) :
      Refuses config row (.expression (.column name) label?) (.columnNotFound name)

variable {config : Config} {row : Node} {selector : Selector}

theorem columnCell_eq_error_iff {name : String} {failure : QueryError} :
    columnCell config row name = .error failure ↔
      config.strictRows = true ∧ Fails ((Path.mk name).resolve .strict row) ∧
        failure = .columnNotFound name := by
  have lenient (absent : config.strictRows ≠ true) :
      Succeeds ((Path.mk name).resolve (absence config) row) := by
    rw [absence, if_neg absent]
    exact Path.succeeds_walk_lenient _ _ _
  by_cases strict : config.strictRows = true
  · have opened : absence config = .strict := if_pos strict
    unfold columnCell
    rw [opened, and_iff_right strict]
    cases (Path.mk name).resolve .strict row with
    | ok node => exact iff_of_false nofun fun both => not_fails_iff.mpr ⟨node, rfl⟩ both.1
    | error cause =>
        rw [and_iff_right ⟨cause, rfl⟩, Except.error.injEq, eq_comm]
  · obtain ⟨node, resolved⟩ := lenient strict
    have found := columnCell_eq_ok_iff.mpr ⟨node, resolved, rfl⟩
    rw [found]
    exact iff_of_false nofun fun all => strict all.1

theorem cells_eq_ok_iff {written : List (String × Value)} :
    cells config row selector = .ok written ↔ Gives config row selector written := by
  constructor
  · intro given
    cases selector with
    | wholeRow =>
        obtain rfl := Except.ok.inj given
        exact .wholeRow
    | allColumns =>
        cases row with
        | object fields =>
            rw [cells, Value.ofFields_eq_map] at given
            obtain rfl := Except.ok.inj given
            exact .fields rfl
        | _ =>
            obtain rfl := Except.ok.inj given
            exact .nothing nofun
    | expression shown label? =>
        cases shown with
        | column name =>
            obtain ⟨value, found, rfl⟩ := map_eq_ok_iff.mp given
            obtain ⟨node, resolved, rfl⟩ := columnCell_eq_ok_iff.mp found
            exact .column resolved
        | _ => exact absurd given nofun
    | tableWildcard table => exact absurd given nofun
  · intro gives
    cases gives with
    | wholeRow => rfl
    | fields isObject =>
        subst isObject
        rw [cells, Value.ofFields_eq_map]
    | nothing noObject =>
        cases row with
        | object fields => exact absurd rfl (noObject fields)
        | _ => rfl
    | column resolved =>
        exact map_eq_ok_iff.mpr ⟨_, columnCell_eq_ok_iff.mpr ⟨_, resolved, rfl⟩, rfl⟩

theorem cells_eq_error_iff {failure : QueryError} :
    cells config row selector = .error failure ↔ Refuses config row selector failure := by
  constructor
  · intro refused
    cases selector with
    | wholeRow => exact absurd refused nofun
    | allColumns => cases row <;> exact absurd refused nofun
    | expression shown label? =>
        cases shown with
        | column name =>
            obtain ⟨strict, unresolved, rfl⟩ :=
              columnCell_eq_error_iff.mp (map_eq_error_iff.mp refused)
            exact .missing label? strict unresolved
        | function name args =>
            obtain rfl := Except.error.inj refused
            exact .function name args label?
        | _ =>
            obtain rfl := Except.error.inj refused
            exact .construct label? nofun nofun
    | tableWildcard table =>
        obtain rfl := Except.error.inj refused
        exact .tableWildcard table
  · intro refuses
    cases refuses with
    | tableWildcard table => rfl
    | function name args label? => rfl
    | @construct shown label? noColumn noFunction =>
        cases shown with
        | column name => exact absurd rfl (noColumn name)
        | function name args => exact absurd rfl (noFunction name args)
        | _ => rfl
    | missing label? strict unresolved =>
        exact map_eq_error_iff.mpr (columnCell_eq_error_iff.mpr ⟨strict, unresolved, rfl⟩)

/-- Every selector is either refused or gives values. -/
theorem succeeds_cells_iff :
    Succeeds (cells config row selector) ↔ ∀ failure, ¬ Refuses config row selector failure := by
  simp only [← not_fails_iff, Fails, cells_eq_error_iff, not_exists]

/-! ### Lists of selectors -/

variable {selectors : List Selector}

theorem project_eq_ok_iff {projected : ProjectedRow} :
    project config selectors row = .ok projected ↔
      ∃ written, List.Forall₂ (Gives config row) selectors written ∧
        projected.Settles written.flatten := by
  simp only [project, bind_eq_ok_iff, mapM_eq_ok_iff, cells_eq_ok_iff, pure_eq_ok_iff,
    ProjectedRow.settles_iff, @eq_comm _ projected]

theorem project_eq_error_iff {failure : QueryError} :
    project config selectors row = .error failure ↔
      FirstFailure (cells config row) selectors failure := by
  simp only [project, bind_eq_error_iff, mapM_eq_error_iff, pure_ne_error, and_false, exists_false,
    or_false]

/-- **Projected rows.** A row is projected to what its selectors give, written out in their order:
each name stands where it is written first, over the value that is written last. The projection
fails exactly if a selector is refused, a table wildcard, an expression other than a column, or,
where selected columns must be there, a column that is absent; it then fails as the first such
selector. -/
theorem project_settles (config : Config) (selectors : List Selector) (row : Node) :
    (∀ projected, project config selectors row = .ok projected ↔
      ∃ written, List.Forall₂ (Gives config row) selectors written ∧
        projected.Settles written.flatten) ∧
    (Fails (project config selectors row) ↔
      ∃ selector ∈ selectors, ∃ failure, Refuses config row selector failure) ∧
    ∀ failure, project config selectors row = .error failure ↔
      ∃ before selector after, selectors = before ++ selector :: after ∧
        (∀ earlier ∈ before, ∀ other, ¬ Refuses config row earlier other) ∧
        Refuses config row selector failure := by
  refine ⟨fun projected => project_eq_ok_iff, ?_, fun failure => ?_⟩
  · simp only [Fails, project_eq_error_iff, exists_firstFailure_iff, cells_eq_error_iff]
  · simp only [project_eq_error_iff, FirstFailure, succeeds_cells_iff, cells_eq_error_iff]

/-- Of `b` as `x`, all fields, and `a` as `b`, the fields replace `x` where it stands and the last
column replaces `b`. An absent column is refused before the table wildcard after it. -/
theorem fields_replace_alias :
    let row := Node.object
      [("a", .number (.ofInt64 1)), ("x", .number (.ofInt64 2)), ("b", .number (.ofInt64 3))]
    project {} [aliased "b" "x", .allColumns, aliased "a" "b"] row =
      .ok [("x", .integer 2), ("a", .integer 1), ("b", .integer 1)] ∧
    project {} [column "a", column "c", .tableWildcard "t"] row = .error (.columnNotFound "c") := by
  intro row
  constructor
  · refine ((project_settles {} _ row).1 _).mpr ⟨[[("x", .integer 3)],
      [("a", .integer 1), ("x", .integer 2), ("b", .integer 3)], [("b", .integer 1)]], ?_,
      ProjectedRow.settles_iff.mpr rfl⟩
    exact .cons (cells_eq_ok_iff.mp rfl)
      (.cons (cells_eq_ok_iff.mp rfl) (.cons (cells_eq_ok_iff.mp rfl) .nil))
  · refine ((project_settles {} _ row).2.2 _).mpr ⟨[column "a"], column "c", [.tableWildcard "t"],
      rfl, ?_, .missing none rfl ⟨_, rfl⟩⟩
    exact List.forall_mem_singleton.mpr (succeeds_cells_iff.mp ⟨_, rfl⟩)

end Selector

end RowQuery
