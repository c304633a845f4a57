import RowQuery.Condition.Basic
import RowQuery.Table.Row

/-! # Selected columns

Each selector gives a row some named values; together, in their order, they make up the projected
row. The list of selectors is checked once, before any row is looked at.
-/

namespace RowQuery

namespace Selector

/-- Whether a selector asks for the entire row. -/
def isWholeRow : Selector → Bool
  | .wholeRow => true
  | _ => false

/-- Refuse an empty list of selectors, and the entire row beside anything else. -/
def check (selectors : List Selector) : Except QueryError Unit :=
  if selectors.isEmpty then .error (.invalidProjection "No columns selected")
  else if selectors.any isWholeRow && 1 < selectors.length then
    .error (.invalidProjection "Selectors '.' cannot be combined with anything else")
  else .ok ()

/-- What an absent path of a selected column reads as. -/
def absence (config : Config) : Absence :=
  if config.strictRows then .strict else .lenient

/-- The value of a selected column. -/
def columnCell (config : Config) (row : Node) (name : String) : Except QueryError Value :=
  match (Path.mk name).resolve (absence config) row with
  | .ok node => .ok (.ofNode config.inferTemporal node)
  | .error _ => .error (.columnNotFound name)

/-- The named values that a selector gives a row. -/
def cells (config : Config) (row : Node) : Selector → Except QueryError (List (String × Value))
  | .wholeRow => .ok [(rootPath, .ofNode config.inferTemporal row)]
  | .allColumns =>
    match row with
    | .object fields => .ok (Value.ofFields config.inferTemporal fields)
    | _ => .ok []
  | .expression (.column name) label? =>
    (columnCell config row name).map fun value => [(label?.getD name, value)]
  | .expression (.function name args) _ =>
    .error (.unsupportedExpression
      ("Function select (" ++ (Expr.function name args).display ++ ")"))
  | .expression other _ => .error (.unsupportedExpression (other.constructName ++ " in select"))
  | .tableWildcard table => .error (.unsupportedExpression ("Wildcard select (" ++ table ++ ".*)"))

/-- Project a row through a list of selectors. -/
def project (config : Config) (selectors : List Selector) (row : Node) :
    Except QueryError ProjectedRow := do
  let cells ← selectors.mapM (cells config row)
  return Fields.ofList cells.flatten

end Selector

end RowQuery
