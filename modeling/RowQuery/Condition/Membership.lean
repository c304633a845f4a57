import RowQuery.Condition.Comparison

/-! # Membership tests

Both sides give candidates: the items of a list, which must have one type, or the value of any other
operand. A side without candidates discards the row, negated or not. Membership is structural: a
whole number is never the same as a float.
-/

namespace RowQuery

namespace Value

/-- Refuse a value whose type differs from the first one's. -/
def requireKind (operator : String) (first value : Value) : Except QueryError Unit :=
  if value.kind = first.kind then .ok () else .error (.typeMismatch first operator value)

/-- Whether all candidates of the left side are among those of the right side. A single multi value
is combined by its mode and its types are not checked. -/
def memberOf (left right : List Value) : Except QueryError Bool :=
  match left with
  | [] => .ok false
  | [.multi mode items] => .ok (mode.combine (items.map right.contains))
  | first :: _ => do
    (left ++ right).forM (requireKind "IN" first)
    return left.all right.contains

end Value

/-- The operator that a mixed list is reported under. -/
def listMismatch : String := "Different types in list"

/-- The values of the items of a list after `first`, which sets their type. -/
def restValues (config : Config) (row : Node) (first : Value) :
    List Expr → Except QueryError (List Value)
  | [] => .ok []
  | item :: rest => do
    let value ← item.value config row
    Value.requireKind listMismatch first value
    let values ← restValues config row first rest
    return value :: values

/-- The values of the items of a list, which must have one type. -/
def listValues (config : Config) (row : Node) : List Expr → Except QueryError (List Value)
  | [] => .ok []
  | item :: rest => do
    let first ← item.value config row
    let values ← restValues config row first rest
    return first :: values

/-- The candidates on the left: the items of a list, or one value. -/
def leftCandidates (config : Config) (row : Node) : Expr → Except QueryError (List Value)
  | .list items => listValues config row items
  | operand => (operand.value config row).map ([·])

/-- The candidates on the right: the items of a list, of an array or of a multi value, or one
value. -/
def rightCandidates (config : Config) (row : Node) : Expr → Except QueryError (List Value)
  | .list items => listValues config row items
  | operand => do
    match ← operand.value config row with
    | .list items => return items
    | .multi _ items => return items
    | single => return [single]

/-- Decide a membership test. -/
def membership (config : Config) (row : Node) (left right : Expr) (negated : Bool) :
    Except QueryError Bool := do
  let left ← leftCandidates config row left
  let right ← rightCandidates config row right
  if left.isEmpty || right.isEmpty then return false
  else
    let contained ← Value.memberOf left right
    return contained != negated

end RowQuery
