import RowQuery.Calendar.Moment
import RowQuery.Fields
import RowQuery.Json.Number
import RowQuery.MatchMode

/-! # Values

A `Value` is what a document node, a literal or an arithmetic operand evaluates to. Text in one of
the ISO layouts becomes a temporal value; a path that crosses arrays becomes a `multi` value, which
exists only while a condition is decided.
-/

namespace RowQuery

/-- A value at run time. -/
inductive Value where
  /-- A whole number. -/
  | integer (value : Int64)
  /-- A fractional number. -/
  | float (value : Float)
  /-- Text that has no temporal layout. -/
  | text (value : String)
  | boolean (value : Bool)
  /-- A point on the time line. -/
  | instant (value : Instant)
  /-- A date and a time without an offset. -/
  | localDateTime (value : LocalDateTime)
  /-- A calendar date. -/
  | localDate (value : Date)
  /-- A time of day. -/
  | localTime (value : Time)
  | null
  /-- The items of an array. -/
  | list (items : List Value)
  /-- The fields of an object in document order. -/
  | object (fields : List (String × Value))
  /-- The values that a path across arrays reaches. -/
  | multi (mode : MatchMode) (items : List Value)
deriving Inhabited

/-- The concrete type of a value. -/
inductive Kind where
  | integer
  | float
  | text
  | boolean
  | instant
  | localDateTime
  | localDate
  | localTime
  | null
  | list
  | object
  | multi
deriving DecidableEq

/-- The name of a type in messages. -/
def Kind.name : Kind → String
  | integer => "Integer"
  | float => "Float"
  | text => "Text"
  | boolean => "Boolean"
  | instant => "Instant"
  | localDateTime => "LocalDateTime"
  | localDate => "LocalDate"
  | localTime => "LocalTime"
  | null => "Null"
  | list => "List"
  | object => "Object"
  | multi => "MultiValue"

namespace Value

/-- The concrete type of a value. -/
def kind : Value → Kind
  | .integer _ => .integer
  | .float _ => .float
  | .text _ => .text
  | .boolean _ => .boolean
  | .instant _ => .instant
  | .localDateTime _ => .localDateTime
  | .localDate _ => .localDate
  | .localTime _ => .localTime
  | .null => .null
  | .list _ => .list
  | .object _ => .object
  | .multi _ _ => .multi

/-- Whether a value is a whole or a fractional number. -/
def isNumeric : Value → Bool
  | .integer _ => true
  | .float _ => true
  | _ => false

/-- Whether a value is null. -/
def isNull : Value → Bool
  | .null => true
  | _ => false

end Value

end RowQuery
