import RowQuery.Value.Text

/-! # Failures

`QueryError` lists why a query cannot be evaluated; each failure aborts the whole query.
`AccessError` lists why a cell of a result cannot be read. The wording is in `message` alone.
-/

namespace RowQuery

/-- Why a query cannot be evaluated. -/
inductive QueryError where
  /-- A path, or the part of one that starts inside an array, leads nowhere. -/
  | elementNotFound (element : String) (within : Option String)
  /-- A column that the query names is absent from the row. -/
  | columnNotFound (column : String)
  /-- The types of two operands do not fit together. -/
  | typeMismatch (left : Value) (operator : String) (right : Value)
  /-- An ordering is asked of a type that has none. -/
  | unsupportedType (kind : Kind) (operator : String)
  /-- The field of a range test is not a number. -/
  | nonNumericBetween (kind : Kind)
  /-- Both operands of a comparison are multi values. -/
  | dualMultiValueNotAllowed
  /-- The construct is known but never evaluated, at least not in this place. -/
  | unsupportedExpression (construct : String)
  /-- The list of selected columns is not allowed. -/
  | invalidProjection (reason : String)
  /-- A query function is called with wrong arguments. -/
  | invalidFunctionArgument (reason : String)
  /-- A whole number is divided by zero. -/
  | divisionByZero (left right : Value)

namespace QueryError

/-- An unsupported ordering of the type of a value. -/
def unsupportedValue (value : Value) (operator : String) : QueryError :=
  .unsupportedType value.kind operator

/-- The wording of a failure. -/
def message : QueryError → String
  | .elementNotFound element within =>
    "Cannot find element '" ++ element ++ "'" ++
      (match within with
        | some expression => " from '" ++ expression ++ "'"
        | none => "")
  | .columnNotFound column => "Column not found " ++ column
  | .typeMismatch left operator right =>
    "Invalid types in expression " ++ left.display ++ "(" ++ left.kind.name ++ ") " ++ operator ++
      " " ++ right.display ++ "(" ++ right.kind.name ++ ")"
  | .unsupportedType kind operator => kind.name ++ " not supported for " ++ operator
  | .nonNumericBetween kind => "cannot perform between for " ++ kind.name
  | .dualMultiValueNotAllowed => "MultiColumn on both sides of expression not allowed."
  | .unsupportedExpression construct => "Expression " ++ construct ++ " not yet supported"
  | .invalidProjection reason => reason
  | .invalidFunctionArgument reason => reason
  | .divisionByZero left right =>
    "Division by zero in expression " ++ left.display ++ " / " ++ right.display

/-- Whether a failure reports a path that is absent from the document. -/
def isMissingPath : QueryError → Bool
  | .elementNotFound _ _ => true
  | .columnNotFound _ => true
  | _ => false

end QueryError

/-- The type in which a cell is asked for. -/
inductive CellType where
  | integer
  | float
  | boolean

/-- The name of a cell type in messages. -/
def CellType.name : CellType → String
  | integer => "i64"
  | float => "f64"
  | boolean => "bool"

/-- Why a cell of a result cannot be read. -/
inductive AccessError where
  /-- The cursor stands before the first row. -/
  | noCurrentRow
  /-- The row has no cell at this index. -/
  | columnIndexOutOfRange (index width : Nat)
  /-- No column has this name. -/
  | unknownColumn (label : String)
  /-- The cell holds a value of another type. -/
  | invalidColumnType (column : String) (actual : Kind) (requested : CellType)

/-- The wording of a failure. -/
def AccessError.message : AccessError → String
  | .noCurrentRow => "Cursor is not positioned on a row"
  | .columnIndexOutOfRange index width =>
    "Column index " ++ Nat.repr index ++ " out of range, result has " ++ Nat.repr width ++
      " columns"
  | .unknownColumn label => "Column " ++ label ++ " not found"
  | .invalidColumnType column actual requested =>
    "Column " ++ column ++ " holds " ++ actual.name ++ ", cannot be read as " ++ requested.name

end RowQuery
