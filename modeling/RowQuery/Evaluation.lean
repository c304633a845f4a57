import RowQuery.Table.Basic
import RowQuery.Table.Selection

/-! # Evaluating queries

A query is evaluated against a document in stages: the selectors are checked, the table is located,
its rows are filtered in document order, the kept rows are projected, and the result is laid out.
The first failure of the first stage that fails is the failure of the query.
-/

namespace RowQuery

namespace Query

/-- Whether a query keeps a row. -/
def keeps (query : Query) (config : Config) (row : Node) : Except QueryError Bool :=
  match query.filter with
  | none => .ok true
  | some condition => condition.holds config row

/-- The rows among `rows` that a query keeps. -/
def keepRows (query : Query) (config : Config) : List Node → Except QueryError (List Node)
  | [] => .ok []
  | row :: rest => do
    let kept ← query.keeps config row
    let others ← keepRows query config rest
    return if kept then row :: others else others

/-- The rows of a table that a query keeps. Nested arrays are flattened; a table that is no array is
its own only row. -/
def filterRows (query : Query) (config : Config) (table : Node) : Except QueryError (List Node) :=
  query.keepRows config table.leaves

/-- The result of a query. -/
def run (query : Query) (config : Config) (document : Node) : Except QueryError Table := do
  Selector.check query.selectors
  let table ← (Path.mk query.root).resolve .strict document
  let rows ← query.filterRows config table
  let projected ← rows.mapM (Selector.project config query.selectors)
  let result := Table.ofProjected projected
  return if query.distinct then result.distinct else result

end Query

end RowQuery
