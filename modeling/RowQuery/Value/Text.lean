import RowQuery.Json.Writer
import RowQuery.Value.Conversion

/-! # Values in messages

The text of a value as it stands in messages and in text cells: text without quotes, floats with all
their digits, temporal values in ISO form, lists in brackets and objects as JSON.
-/

namespace RowQuery.Value

/-- The text of a truth value. -/
def booleanText (value : Bool) : String :=
  if value then "true" else "false"

/-- The decimal digits of a whole number. -/
def integerText (value : Int64) : String :=
  String.ofList (Digits.signed value.toInt)

mutual

/-- The text of a value in messages. -/
def display : Value → String
  | .integer value => integerText value
  | .float value => Decimal.plainText value
  | .text value => value
  | .boolean value => booleanText value
  | .instant value => value.text
  | .localDateTime value => value.text
  | .localDate value => value.text
  | .localTime value => value.text
  | .null => "null"
  | .list items => "[" ++ String.intercalate ", " (displays items) ++ "]"
  | .object fields => (toNode (.object fields)).compact
  | .multi mode items =>
    mode.functionName ++ "(" ++ String.intercalate ", " (displays items) ++ ")"

/-- The texts of several values. -/
def displays : List Value → List String
  | [] => []
  | item :: rest => item.display :: displays rest

end

end RowQuery.Value
