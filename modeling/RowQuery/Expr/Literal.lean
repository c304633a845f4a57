import RowQuery.Value.Text

/-! # Literals -/

namespace RowQuery

/-- A value written in a query. -/
inductive Literal where
  | string (value : String)
  | integer (value : Int64)
  | float (value : Float)
  | boolean (value : Bool)
  | null
  | date (value : Date)
  | time (value : Time)
  | timestamp (value : LocalDateTime)
deriving DecidableEq

namespace Literal

/-- The value that a literal stands for. Text literals are never probed for dates. -/
def toValue : Literal → Value
  | .string value => .text value
  | .integer value => .integer value
  | .float value => .float value
  | .boolean value => .boolean value
  | .null => .null
  | .date value => .localDate value
  | .time value => .localTime value
  | .timestamp value => .localDateTime value

/-- A temporal literal: a tag and a quoted text in braces. -/
def braced (tag content : String) : String :=
  "\x7b" ++ tag ++ " '" ++ content ++ "'\x7d"

/-- The text of a literal in a query. -/
def display : Literal → String
  | .string value => "'" ++ value ++ "'"
  | .integer value => Value.integerText value
  | .float value => Decimal.plainText value
  | .boolean value => Value.booleanText value
  | .null => "NULL"
  | .date value => braced "d" value.text
  | .time value => braced "t" value.text
  | .timestamp value => braced "ts" value.text

end Literal

end RowQuery
