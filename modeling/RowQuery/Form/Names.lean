import RowQuery.Expr.Operator

/-! # Names in the JSON form of queries

Each operator has one name in the JSON form. The names are listed in a fixed order, because a name
may also be given by its position in that order.
-/

namespace RowQuery

/-- The name of a comparison in the JSON form. -/
def ComparisonOp.formName : ComparisonOp → String
  | equal => "equal"
  | notEqual => "not_equal"
  | greater => "greater"
  | greaterEq => "greater_eq"
  | less => "less"
  | lessEq => "less_eq"

/-- The comparison with a name in the JSON form. -/
def ComparisonOp.ofFormName? (name : String) : Option ComparisonOp :=
  [equal, notEqual, greater, greaterEq, less, lessEq].find? (·.formName = name)

/-- The name of a connective in the JSON form. -/
def LogicalOp.formName : LogicalOp → String
  | and => "and"
  | or => "or"

/-- The connective with a name in the JSON form. -/
def LogicalOp.ofFormName? (name : String) : Option LogicalOp :=
  [and, or].find? (·.formName = name)

/-- The name of an arithmetic operator in the JSON form. -/
def ArithmeticOp.formName : ArithmeticOp → String
  | add => "add"
  | subtract => "subtract"
  | multiply => "multiply"
  | divide => "divide"
  | modulo => "modulo"

/-- The arithmetic operator with a name in the JSON form. -/
def ArithmeticOp.ofFormName? (name : String) : Option ArithmeticOp :=
  [add, subtract, multiply, divide, modulo].find? (·.formName = name)

/-- The name of a bitwise operator in the JSON form. -/
def BitwiseOp.formName : BitwiseOp → String
  | and => "and"
  | or => "or"
  | xor => "xor"
  | leftShift => "left_shift"
  | rightShift => "right_shift"

/-- The bitwise operator with a name in the JSON form. -/
def BitwiseOp.ofFormName? (name : String) : Option BitwiseOp :=
  [and, or, xor, leftShift, rightShift].find? (·.formName = name)

end RowQuery
