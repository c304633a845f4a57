import RowQuery.Condition.Operand

/-! # Comparisons

Equality promotes numbers and is otherwise strict about types, except that null may be compared with
anything. Orderings are for numbers only. A comparison with a multi value is checked and decided for
each of its values, and the outcomes are combined by its match mode.
-/

namespace RowQuery

namespace Value

/-- Equality of two single values; null equals only null. -/
def equal (left right : Value) : Except QueryError Bool :=
  if left.isNull || right.isNull then .ok (left.isNull && right.isNull)
  else do
    requireMatching left right ComparisonOp.equal.symbol
    return promotedEqual left right

/-- The order of two numbers; none if a NaN is among them. -/
def order (left : Value) (operator : ComparisonOp) (right : Value) :
    Except QueryError (Option Ordering) :=
  match NumericPair.ofValues? left right with
  | some pair => .ok pair.order?
  | none =>
    if left.isNull || left.kind = right.kind then
      .error (.unsupportedValue left operator.symbol)
    else if right.isNull then .error (.unsupportedValue right operator.symbol)
    else .error (.typeMismatch left operator.symbol right)

/-- Compare two single values. -/
def compare (left : Value) (operator : ComparisonOp) (right : Value) : Except QueryError Bool :=
  match operator with
  | .equal => equal left right
  | .notEqual => (equal left right).map (!·)
  | .greater => (order left operator right).map fun found => found.any (· == .gt)
  | .greaterEq => (order left operator right).map fun found => found.any (· != .lt)
  | .less => (order left operator right).map fun found => found.any (· == .lt)
  | .lessEq => (order left operator right).map fun found => found.any (· != .gt)

/-- Compare the values of a multi value, each with `other`: first every type is checked, then every
comparison is made, then the outcomes are combined. -/
def compareEach (mode : MatchMode) (items : List Value) (operator : ComparisonOp) (other : Value)
    (decide : Value → Except QueryError Bool) : Except QueryError Bool := do
  items.forM (requireMatching · other operator.symbol)
  let outcomes ← items.mapM decide
  return mode.combine outcomes

/-- Compare two operands of which at most one may be a multi value. -/
def compareOperands (left : Value) (operator : ComparisonOp) (right : Value) :
    Except QueryError Bool :=
  match left, right with
  | .multi _ _, .multi _ _ => .error .dualMultiValueNotAllowed
  | .multi mode items, other => compareEach mode items operator other (compare · operator other)
  | other, .multi mode items => compareEach mode items operator other (compare other operator ·)
  | left, right => compare left operator right

end Value

end RowQuery
