import RowQuery.Fields
import RowQuery.Json.Number

/-! # JSON documents

A `Node` is a JSON tree. Objects keep their fields in document order. `Node.merged` gives repeated
field names their meaning: the last entry counts and stands where the name appeared first.
-/

namespace RowQuery

/-- A JSON tree. -/
inductive Node where
  | null
  | boolean (value : Bool)
  | number (value : Number)
  | text (value : String)
  | array (items : List Node)
  | object (fields : List (String × Node))
deriving Inhabited

namespace Node

/-- The entry of an object under a name; other nodes have no fields. -/
def field? (node : Node) (name : String) : Option Node :=
  match node with
  | .object fields => Fields.get? fields name
  | _ => none

mutual

/-- The deep flattening of a node: an array gives the leaves of its items in order, any other node
is its own only leaf. -/
def leaves : Node → List Node
  | .array items => leavesOfItems items
  | node => [node]

/-- The leaves of several nodes, one after the other. -/
def leavesOfItems : List Node → List Node
  | [] => []
  | item :: rest => item.leaves ++ leavesOfItems rest

end

/-- Several nodes have the leaves of each, in order. -/
theorem leavesOfItems_eq_flatMap (items : List Node) :
    leavesOfItems items = items.flatMap leaves := by
  induction items with
  | nil => rfl
  | cons item rest ih => simp only [leavesOfItems, ih, List.flatMap_cons]

theorem leaves_array (items : List Node) : (array items).leaves = items.flatMap leaves := by
  rw [leaves, leavesOfItems_eq_flatMap]

theorem leaves_of_ne_array {node : Node} (single : ∀ items, node ≠ .array items) :
    node.leaves = [node] := by
  cases node with
  | array items => exact absurd rfl (single items)
  | _ => rfl

mutual

/-- The tree in which every object has each field name once. -/
def merged : Node → Node
  | .array items => .array (mergedItems items)
  | .object fields => .object (Fields.ofList (mergedFields fields))
  | node => node

/-- Each node merged. -/
def mergedItems : List Node → List Node
  | [] => []
  | item :: rest => item.merged :: mergedItems rest

/-- Each entry merged. -/
def mergedFields : List (String × Node) → List (String × Node)
  | [] => []
  | (name, entry) :: rest => (name, entry.merged) :: mergedFields rest

end

mutual

/-- Whether every object of a tree has distinct field names, as every tree that is read has. -/
def WellFormed : Node → Prop
  | .array items => WellFormedItems items
  | .object fields => (Fields.names fields).Nodup ∧ WellFormedFields fields
  | _ => True

/-- Each node is well-formed. -/
def WellFormedItems : List Node → Prop
  | [] => True
  | item :: rest => item.WellFormed ∧ WellFormedItems rest

/-- Each entry is well-formed. -/
def WellFormedFields : List (String × Node) → Prop
  | [] => True
  | (_, entry) :: rest => entry.WellFormed ∧ WellFormedFields rest

end

end Node

end RowQuery
