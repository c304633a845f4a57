import RowQuery.Decimal.Digits
import RowQuery.Decimal.Layout
import RowQuery.Json.Node

/-! # Compact JSON text

Nodes are written without spaces and with their fields in order. In strings only the quote, the
backslash and control characters are escaped.
-/

namespace RowQuery

namespace Json

/-- A control character by its code, in lower-case hexadecimal digits. -/
def codeEscape (c : Char) : List Char :=
  ['\\', 'u', '0', '0', Nat.digitChar (c.toNat / 16), Nat.digitChar (c.toNat % 16)]

/-- A character as it stands inside a string. -/
def escape (c : Char) : List Char :=
  if c = '"' then ['\\', '"']
  else if c = '\\' then ['\\', '\\']
  else if c = '\n' then ['\\', 'n']
  else if c = '\r' then ['\\', 'r']
  else if c = '\t' then ['\\', 't']
  else if c = '\x08' then ['\\', 'b']
  else if c = '\x0c' then ['\\', 'f']
  else if c.toNat < 0x20 then codeEscape c
  else [c]

/-- A text in quotes. -/
def quoted (text : String) : String :=
  String.ofList ('"' :: text.toList.flatMap escape ++ ['"'])

end Json

/-- The text of a number: integers in decimal digits, floats with a point or an exponent. -/
def Number.text : Number → String
  | .integer n _ => String.ofList (Digits.signed n)
  | .decimal x _ => Decimal.Layout.json.finiteText x

namespace Node

mutual

/-- The compact text of a node. -/
def compact : Node → String
  | .null => "null"
  | .boolean value => if value then "true" else "false"
  | .number value => value.text
  | .text value => Json.quoted value
  | .array items => "[" ++ String.intercalate "," (compactItems items) ++ "]"
  | .object fields => "\x7b" ++ String.intercalate "," (compactFields fields) ++ "\x7d"

/-- The compact text of each node. -/
def compactItems : List Node → List String
  | [] => []
  | item :: rest => item.compact :: compactItems rest

/-- The compact text of each field. -/
def compactFields : List (String × Node) → List String
  | [] => []
  | (name, entry) :: rest => (Json.quoted name ++ ":" ++ entry.compact) :: compactFields rest

end

end Node

end RowQuery
