import RowQuery.Condition.Comparison

/-! # Range tests

A range includes both bounds. The field must be a number, and so must the bounds; the values of a
multi value are checked before any of them is tested.
-/

namespace RowQuery.Value

/-- Refuse a range test whose field is no number or whose bounds do not fit it. -/
def requireRange (low high item : Value) : Except QueryError Unit :=
  if item.isNumeric then do
    let promoted := item.promoteAmong [low, high]
    requireMatching promoted (low.promoteAmong [item, high]) "Between(start range)"
    requireMatching promoted (high.promoteAmong [item, low]) "Between(end range)"
  else .error (.nonNumericBetween item.kind)

/-- Whether two numbers stand in one of the wanted orders. -/
def ordered (wanted : Ordering → Bool) (left right : Value) : Bool :=
  ((NumericPair.ofValues? left right).bind NumericPair.order?).any wanted

/-- Whether a number lies between two bounds. -/
def within (low high item : Value) : Bool :=
  ordered (· != .lt) item low && ordered (· != .gt) item high

/-- Decide a range test for the value or the values of its field. -/
def inRange (field low high : Value) : Except QueryError Bool :=
  match field with
  | .multi mode items => do
    items.forM (requireRange low high)
    return mode.combine (items.map (within low high))
  | single => do
    requireRange low high single
    return within low high single

end RowQuery.Value
