import RowQuery.Error
import RowQuery.Path.Basic

/-! # Collecting values along a path

Where resolution builds nested arrays, collection gives one flat list: arrays are flattened at every
level, at the end of the path too, and every branch must have every field.
-/

namespace RowQuery.Path

/-- The field of one branch, or the failure that names it. -/
def branch (complete segment : String) (leaf : Node) : Except QueryError Node :=
  match leaf.field? segment with
  | some next => .ok next
  | none => .error (.elementNotFound segment (some complete))

/-- The leaves reached by following segments from every leaf of a node. -/
def descend (complete : String) : List String → Node → Except QueryError (List Node)
  | [], node => .ok node.leaves
  | segment :: rest, node => do
    let branches ← node.leaves.mapM fun leaf => do
      let next ← branch complete segment leaf
      descend complete rest next
    return branches.flatten

/-- Every leaf that a path reaches, in document order. -/
def collect (path : Path) (node : Node) : Except QueryError (List Node) :=
  descend path.complete path.segments node

end RowQuery.Path
