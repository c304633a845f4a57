import RowQuery.Table.Row
import RowQuery.Value.Conversion
import RowQuery.Value.Equality

/-! # Result tables

A table has headers, each once, and rows of values that stand under them by position. It is laid out
from projected rows by the columns of the first one.
-/

namespace RowQuery

/-- A row of a table: its values by position. -/
abbrev TableRow := List Value

/-- The result of a query. -/
structure Table where
  /-- The column names. -/
  headers : List String := []
  /-- The rows in order. -/
  rows : List TableRow := []

namespace Table

/-- The table with one more header, unless it is there already. -/
def addHeader (table : Table) (name : String) : Table :=
  if name ∈ table.headers then table else { table with headers := table.headers ++ [name] }

/-- The table with one more row. -/
def addRow (table : Table) (row : TableRow) : Table :=
  { table with rows := table.rows ++ [row] }

/-- The rows that equal neither one of `seen` nor an earlier row. -/
def keepNew (seen : List TableRow) : List TableRow → List TableRow
  | [] => []
  | row :: rest =>
    if seen.contains row then keepNew seen rest else row :: keepNew (row :: seen) rest

/-- The table without the rows that equal an earlier one. -/
def distinct (table : Table) : Table :=
  { table with rows := keepNew [] table.rows }

/-- A step in the assembly of a table. -/
inductive Step where
  | header (name : String)
  | row (cells : TableRow)
  | distinct

/-- The table after a step. -/
def Step.apply (table : Table) : Step → Table
  | .header name => table.addHeader name
  | .row cells => table.addRow cells
  | .distinct => table.distinct

/-- The table after several steps. -/
def build (table : Table) (steps : List Step) : Table :=
  steps.foldl Step.apply table

/-- A projected row laid out under headers: null where it lacks the column. -/
def layOut (headers : List String) (row : ProjectedRow) : TableRow :=
  headers.map fun name => (row.get? name).getD .null

/-- The table of projected rows. Its headers are the columns of the first row. -/
def ofProjected (projected : List ProjectedRow) : Table :=
  match projected with
  | [] => {}
  | first :: _ =>
    { headers := Fields.names first
      rows := projected.map (layOut (Fields.names first)) }

/-- A row as a document node. -/
def rowNode (row : TableRow) : Node :=
  .array (Value.toNodes row)

/-- The object that a row makes up under the headers. -/
def recordNode (table : Table) (row : TableRow) : Node :=
  .object (Fields.ofList (table.headers.zip (Value.toNodes row)))

/-- A table as a document node: an array with one object for each row. -/
def toNode (table : Table) : Node :=
  .array (table.rows.map table.recordNode)

/-- The index of the column with a label. -/
def findColumn? (table : Table) (label : String) : Option Nat :=
  table.headers.findIdx? (· = label)

end Table

end RowQuery
