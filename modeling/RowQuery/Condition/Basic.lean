import RowQuery.Condition.Between
import RowQuery.Condition.Membership

/-! # Conditions

A condition decides whether a row is kept. Both sides of a connective are always evaluated, the left
one first, so that a failure on the right is never hidden by the left. Operands and constructs that
are never evaluated are refused by name.
-/

namespace RowQuery

/-- The meaning of a connective. -/
def LogicalOp.apply : LogicalOp → Bool → Bool → Bool
  | and, left, right => left && right
  | or, left, right => left || right

namespace Expr

/-- The refusal of an expression in the place of a condition: an operand is called one, every other
construct is just named. -/
def notACondition (expression : Expr) : QueryError :=
  match expression with
  | .column _ | .literal _ | .list _ | .function _ _ | .arithmetic _ _ _ =>
    .unsupportedExpression (expression.constructName ++ " as condition")
  | _ => .unsupportedExpression expression.constructName

/-- Decide a condition for a row. -/
def holds (config : Config) (row : Node) : Expr → Except QueryError Bool
  | .logical left operator right => do
    let left ← left.holds config row
    let right ← right.holds config row
    return operator.apply left right
  | .not expression => return !(← expression.holds config row)
  | .parenthesis expression => expression.holds config row
  | .comparison left operator right => do
    let left ← left.value config row
    let right ← right.value config row
    left.compareOperands operator right
  | .between field low high negated => do
    let field ← field.value config row
    let low ← low.value config row
    let high ← high.value config row
    return (← field.inRange low high) != negated
  | .member left right negated => membership config row left right negated
  | other => .error other.notACondition

end Expr

end RowQuery
