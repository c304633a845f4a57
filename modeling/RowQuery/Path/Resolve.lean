import RowQuery.Error
import RowQuery.Path.Basic

/-! # Resolving paths

A path is followed field by field. At an array it is followed into each item that is an object with
the next field, and the results make up a new array; items that lead nowhere are passed over. Strict
resolution fails when nothing is found, lenient resolution reads null or an empty array instead.
-/

namespace RowQuery

/-- What is read where a path leads nowhere. -/
inductive Absence where
  /-- The resolution fails. -/
  | strict
  /-- The path reads as null. -/
  | lenient
deriving DecidableEq

namespace Path

/-- The successes among several attempts. -/
def successes {ε α : Type} : List (Except ε α) → List α
  | [] => []
  | .ok found :: rest => found :: successes rest
  | .error _ :: rest => successes rest

/-- The first failure among several attempts. -/
def firstFailure? {ε α : Type} : List (Except ε α) → Option ε
  | [] => none
  | .ok _ :: rest => firstFailure? rest
  | .error failure :: _ => some failure

/-- Follow segments from a node; `complete` is the whole path for messages. -/
def walk (absence : Absence) (complete : String) : List String → Node → Except QueryError Node
  | [], node => .ok node
  | segment :: rest, .array items =>
    let attempts := (items.filterMap (·.field? segment)).map (walk absence complete rest)
    let found := successes attempts
    if found.isEmpty && absence = .strict then
      .error ((firstFailure? attempts).getD
        (.elementNotFound (join (segment :: rest)) (some complete)))
    else .ok (.array found)
  | segment :: rest, node =>
    match node.field? segment with
    | some next => walk absence complete rest next
    | none =>
      match absence with
      | .lenient => .ok .null
      | .strict => .error (.elementNotFound complete none)

/-- The node that a path leads to. -/
def resolve (absence : Absence) (path : Path) (node : Node) : Except QueryError Node :=
  walk absence path.complete path.segments node

end Path

end RowQuery
