import RowQuery.Expr.Text

/-! # Queries

A query names the table inside a document, the rows to keep, the columns to give back, and whether
equal rows are given back once.
-/

namespace RowQuery

/-- The path that stands for a whole document or a whole row. -/
def rootPath : String := "."

/-- One entry of the list of selected columns. -/
inductive Selector where
  /-- Every top-level field of the row. -/
  | allColumns
  /-- The entire row as one column, which stands alone. -/
  | wholeRow
  /-- One expression, under its own name or an alias. -/
  | expression (shown : Expr) (label? : Option String)
  /-- Every column of a named table. -/
  | tableWildcard (table : String)

namespace Selector

/-- The column under a path, named by the path. -/
def column (path : String) : Selector :=
  .expression (.column path) none

/-- The column under a path, named by an alias. -/
def aliased (path name : String) : Selector :=
  .expression (.column path) (some name)

end Selector

/-- A query. -/
structure Query where
  /-- The path of the table. -/
  root : String
  /-- The condition on rows, if there is one. -/
  filter : Option Expr := none
  /-- The selected columns, in order. -/
  selectors : List Selector := []
  /-- Whether equal rows are given back once. -/
  distinct : Bool := false

namespace Query

/-- The query with one more selected column. -/
def select (query : Query) (selector : Selector) : Query :=
  { query with selectors := query.selectors ++ [selector] }

/-- A one-line summary. -/
def display (query : Query) : String :=
  "QueryClause\x7broot_path='" ++ query.root ++ "', filter=" ++
    (match query.filter with
      | some condition => condition.display
      | none => "none") ++
    ", projections=" ++ Nat.repr query.selectors.length ++
    ", distinct=" ++ Value.booleanText query.distinct ++ "\x7d"

end Query

/-- The switches of evaluation. -/
structure Config where
  /-- Selected paths that are absent from a row fail instead of reading as null. -/
  strictRows : Bool := true
  /-- Document text is probed for the ISO layouts. -/
  inferTemporal : Bool := true
deriving DecidableEq

/-- The switches that tolerate absent paths. -/
def Config.lenient : Config where
  strictRows := false

end RowQuery
