import RowQuery.Error
import RowQuery.Table.Basic

/-! # Cursors

A cursor stands before the first row of a table or on one of its rows. Cells of the current row are
read by index or by column label. A null cell reads as no value; a cell of another type than the one
asked for is refused.
-/

namespace RowQuery

/-- A table with a position in it. -/
structure Cursor where
  /-- The table that is read. -/
  table : Table
  /-- The index of the current row; none before the first row. -/
  position : Option Nat := none

namespace Cursor

/-- Move to the next row; false on the last one. -/
def advance (cursor : Cursor) : Bool × Cursor :=
  let next :=
    match cursor.position with
    | some current => current + 1
    | none => 0
  if next < cursor.table.rows.length then (true, { cursor with position := some next })
  else (false, cursor)

/-- Move to the preceding row; false on the first row or before it. -/
def retreat (cursor : Cursor) : Bool × Cursor :=
  match cursor.position with
  | some (previous + 1) => (true, { cursor with position := some previous })
  | _ => (false, cursor)

/-- Move before the first row. -/
def reset (cursor : Cursor) : Cursor :=
  { cursor with position := none }

/-- The row the cursor stands on. -/
def currentRow (cursor : Cursor) : Except AccessError TableRow :=
  match cursor.position.bind (cursor.table.rows[·]?) with
  | some row => .ok row
  | none => .error .noCurrentRow

/-- The index of the column with a label. -/
def findColumn (cursor : Cursor) (label : String) : Except AccessError Nat :=
  match cursor.table.findColumn? label with
  | some index => .ok index
  | none => .error (.unknownColumn label)

/-- The value at an index of the current row. -/
def value (cursor : Cursor) (index : Nat) : Except AccessError Value := do
  let row ← cursor.currentRow
  match row[index]? with
  | some value => return value
  | none => throw (.columnIndexOutOfRange index cursor.table.headers.length)

/-- The refusal to read a value as another type. The column is named by its header, or by its index
where it has none. -/
def wrongType (cursor : Cursor) (index : Nat) (value : Value) (requested : CellType) :
    AccessError :=
  .invalidColumnType (cursor.table.headers[index]?.getD (Nat.repr index)) value.kind requested

/-- A cell as a whole number. -/
def integer (cursor : Cursor) (index : Nat) : Except AccessError (Option Int64) := do
  match ← cursor.value index with
  | .null => return none
  | .integer value => return some value
  | other => throw (cursor.wrongType index other .integer)

/-- A cell as a float; whole numbers are widened. -/
def float (cursor : Cursor) (index : Nat) : Except AccessError (Option Float) := do
  match ← cursor.value index with
  | .null => return none
  | .float value => return some value
  | .integer value => return some (Float.ofInt value.toInt)
  | other => throw (cursor.wrongType index other .float)

/-- A cell as a truth value. -/
def boolean (cursor : Cursor) (index : Nat) : Except AccessError (Option Bool) := do
  match ← cursor.value index with
  | .null => return none
  | .boolean value => return some value
  | other => throw (cursor.wrongType index other .boolean)

/-- A cell of any type as text: lists and objects as JSON, all else as in messages. -/
def text (cursor : Cursor) (index : Nat) : Except AccessError (Option String) := do
  match ← cursor.value index with
  | .null => return none
  | .text value => return some value
  | .list items => return some (Value.toNode (.list items)).compact
  | .object fields => return some (Value.toNode (.object fields)).compact
  | .multi mode items => return some (Value.toNode (.multi mode items)).compact
  | other => return some other.display

/-- Read by column label what `read` reads by index. -/
def byName {α : Type} (cursor : Cursor) (label : String)
    (read : Cursor → Nat → Except AccessError α) : Except AccessError α := do
  let index ← cursor.findColumn label
  read cursor index

/-- A movement of a cursor. -/
inductive Move where
  | advance
  | retreat
  | reset

/-- The cursor after a movement. -/
def Move.apply (cursor : Cursor) : Move → Cursor
  | .advance => cursor.advance.2
  | .retreat => cursor.retreat.2
  | .reset => cursor.reset

end Cursor

end RowQuery
