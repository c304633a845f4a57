import RowQuery.Expr.Operator
import RowQuery.Value.Numeric

/-! # Arithmetic

Whole numbers stay whole and wrap around at 64 bits; a float on either side widens the operation.
Dividing whole numbers truncates toward zero, and dividing one by zero fails.
-/

namespace RowQuery

namespace Value

/-- Apply an operator to two operands. The remainder is known but not evaluated. -/
def applyOp (left : Value) (operator : ArithmeticOp) (right : Value) : Except QueryError Value :=
  match operator, NumericPair.ofValues? left right with
  | .modulo, _ => .error (.unsupportedExpression "Modulo")
  | _, none => .error (.typeMismatch left operator.symbol right)
  | .add, some (.integers a b) => .ok (.integer (a + b))
  | .add, some (.floats a b) => .ok (.float (a + b))
  | .subtract, some (.integers a b) => .ok (.integer (a - b))
  | .subtract, some (.floats a b) => .ok (.float (a - b))
  | .multiply, some (.integers a b) => .ok (.integer (a * b))
  | .multiply, some (.floats a b) => .ok (.float (a * b))
  | .divide, some (.integers a b) =>
    if b = 0 then .error (.divisionByZero left right) else .ok (.integer (a / b))
  | .divide, some (.floats a b) => .ok (.float (a / b))

end Value

end RowQuery
