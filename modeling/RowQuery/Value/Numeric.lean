import RowQuery.Error
import RowQuery.Value.Equality

/-! # Numeric promotion

If either operand is a float, both are widened to floats; two whole numbers stay whole. Every other
mix of types does not fit together.
-/

namespace RowQuery

/-- Two numbers of one type. -/
inductive NumericPair where
  | integers (left right : Int64)
  | floats (left right : Float)

/-- The float nearest to a whole number. -/
def widen (value : Int64) : Float :=
  Float.ofInt value.toInt

namespace NumericPair

/-- Two numeric values after promotion. -/
def ofValues? : Value → Value → Option NumericPair
  | .integer left, .integer right => some (.integers left right)
  | .float left, .float right => some (.floats left right)
  | .integer left, .float right => some (.floats (widen left) right)
  | .float left, .integer right => some (.floats left (widen right))
  | _, _ => none

/-- The order of two floats; none if one of them is a NaN. -/
def floatOrder? (left right : Float) : Option Ordering :=
  if left < right then some .lt
  else if left == right then some .eq
  else if right < left then some .gt
  else none

/-- The order of two whole numbers. -/
def integerOrder (left right : Int64) : Ordering :=
  if left < right then .lt else if left = right then .eq else .gt

/-- The order of two numbers of one type; none if a NaN is among them. -/
def order? : NumericPair → Option Ordering
  | .integers left right => some (integerOrder left right)
  | .floats left right => floatOrder? left right

/-- Whether two numbers of one type are equal as numbers. -/
def equal : NumericPair → Bool
  | .integers left right => left == right
  | .floats left right => left == right

end NumericPair

namespace Value

/-- A value among its peers: a whole number is widened when a peer is a float. -/
def promoteAmong (value : Value) (peers : List Value) : Value :=
  match value with
  | .integer whole => if peers.any (·.kind = .float) then .float (widen whole) else .integer whole
  | value => value

/-- Refuse two values that have no type in common after promotion. Null fits nothing. -/
def requireMatching (left right : Value) (operator : String) : Except QueryError Unit :=
  if left.isNull || right.isNull then .error (.typeMismatch left operator right)
  else if (NumericPair.ofValues? left right).isSome || left.kind = right.kind then .ok ()
  else .error (.typeMismatch left operator right)

/-- Equality after promotion: numbers by their size, all else by structure. -/
def promotedEqual (left right : Value) : Bool :=
  match NumericPair.ofValues? left right with
  | some pair => pair.equal
  | none => left == right

end Value

end RowQuery
