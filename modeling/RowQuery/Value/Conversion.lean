import RowQuery.Calendar.Iso
import RowQuery.Json.Node
import RowQuery.Value.Basic

/-! # Values and document nodes

`Value.ofNode` reads a document node: integers of the signed 64-bit range stay whole, all other
numbers become floats, and text is probed for the ISO layouts when that is asked for. `Value.toNode`
goes back: temporal values become their ISO text, and a float that is not finite becomes null.
-/

namespace RowQuery.Value

/-- The temporal value that a text writes in one of the four ISO layouts, else the text itself. -/
def infer (written : String) : Value :=
  match Iso.instant? written.toList with
  | some point => .instant point
  | none =>
    match Iso.dateTime? written.toList with
    | some moment => .localDateTime moment
    | none =>
      match Iso.date? written.toList with
      | some date => .localDate date
      | none =>
        match Iso.time? written.toList with
        | some time => .localTime time
        | none => .text written

/-- The value of a number. -/
def ofNumber (number : Number) : Value :=
  match number.toInt64? with
  | some word => .integer word
  | none => .float number.toFloat

mutual

/-- The value of a document node; `inferTemporal` says whether text is probed for ISO layouts. -/
def ofNode (inferTemporal : Bool) : Node → Value
  | .null => .null
  | .boolean value => .boolean value
  | .number number => ofNumber number
  | .text written => if inferTemporal then infer written else .text written
  | .array items => .list (ofItems inferTemporal items)
  | .object fields => .object (ofFields inferTemporal fields)

/-- The values of several nodes. -/
def ofItems (inferTemporal : Bool) : List Node → List Value
  | [] => []
  | item :: rest => ofNode inferTemporal item :: ofItems inferTemporal rest

/-- The values of the fields of an object. -/
def ofFields (inferTemporal : Bool) : List (String × Node) → List (String × Value)
  | [] => []
  | (name, entry) :: rest => (name, ofNode inferTemporal entry) :: ofFields inferTemporal rest

end

/-- Several nodes are converted one by one. -/
theorem ofItems_eq_map (inferTemporal : Bool) (items : List Node) :
    ofItems inferTemporal items = items.map (ofNode inferTemporal) := by
  induction items with
  | nil => rfl
  | cons item rest ih => simp only [ofItems, ih, List.map_cons]

/-- The fields of an object are converted one by one. -/
theorem ofFields_eq_map (inferTemporal : Bool) (fields : List (String × Node)) :
    ofFields inferTemporal fields =
      fields.map fun field => (field.1, ofNode inferTemporal field.2) := by
  induction fields with
  | nil => rfl
  | cons field rest ih =>
    obtain ⟨name, entry⟩ := field
    simp only [ofFields, ih, List.map_cons]

/-- The node of a float: null when it is not finite. -/
def floatNode (x : Float) : Node :=
  match Number.ofFloat? x with
  | some number => .number number
  | none => .null

mutual

/-- The document node of a value. -/
def toNode : Value → Node
  | .integer value => .number (.ofInt64 value)
  | .float value => floatNode value
  | .text value => .text value
  | .boolean value => .boolean value
  | .instant value => .text value.text
  | .localDateTime value => .text value.text
  | .localDate value => .text value.text
  | .localTime value => .text value.text
  | .null => .null
  | .list items => .array (toNodes items)
  | .object fields => .object (Fields.ofList (toFields fields))
  | .multi _ items => .array (toNodes items)

/-- The nodes of several values. -/
def toNodes : List Value → List Node
  | [] => []
  | item :: rest => item.toNode :: toNodes rest

/-- The nodes of the fields of an object. -/
def toFields : List (String × Value) → List (String × Node)
  | [] => []
  | (name, entry) :: rest => (name, entry.toNode) :: toFields rest

end

/-- Several values are converted one by one. -/
theorem toNodes_eq_map (items : List Value) : toNodes items = items.map toNode := by
  induction items with
  | nil => rfl
  | cons item rest ih => simp only [toNodes, ih, List.map_cons]

end RowQuery.Value
