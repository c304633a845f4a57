import RowQuery.Fields
import RowQuery.Value.Basic

/-! # Projected rows

A projected row holds one value under each of its column names. Storing under a known name replaces
the value in place; taking a value out leaves null behind and keeps the column.
-/

namespace RowQuery

/-- One row after projection: its columns, in the order in which they were first stored. -/
abbrev ProjectedRow := Fields Value

namespace ProjectedRow

/-- Take the value of a column out of a row. -/
def take (row : ProjectedRow) (name : String) : Option Value × ProjectedRow :=
  match row.get? name with
  | some value => (some value, row.put name .null)
  | none => (none, row)

/-- A change of one column. -/
inductive Step where
  | insert (name : String) (value : Value)
  | take (name : String)

/-- The row after a step. -/
def Step.apply (row : ProjectedRow) : Step → ProjectedRow
  | .insert name value => row.put name value
  | .take name => (row.take name).2

/-- The row after several steps. -/
def run (row : ProjectedRow) (steps : List Step) : ProjectedRow :=
  steps.foldl Step.apply row

end ProjectedRow

end RowQuery
