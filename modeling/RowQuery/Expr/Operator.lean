/-! # Operators of query expressions -/

namespace RowQuery

/-- Comparison operators. -/
inductive ComparisonOp where
  | equal
  | notEqual
  | greater
  | greaterEq
  | less
  | lessEq
deriving DecidableEq

/-- The symbol of a comparison. -/
def ComparisonOp.symbol : ComparisonOp → String
  | equal => "="
  | notEqual => "!="
  | greater => ">"
  | greaterEq => ">="
  | less => "<"
  | lessEq => "<="

/-- Logical connectives. -/
inductive LogicalOp where
  | and
  | or
deriving DecidableEq

/-- The keyword of a connective. -/
def LogicalOp.keyword : LogicalOp → String
  | and => "AND"
  | or => "OR"

/-- The name of a connective in messages. -/
def LogicalOp.name : LogicalOp → String
  | and => "And"
  | or => "Or"

/-- Arithmetic operators. -/
inductive ArithmeticOp where
  | add
  | subtract
  | multiply
  | divide
  | modulo
deriving DecidableEq

/-- The symbol of an arithmetic operator. -/
def ArithmeticOp.symbol : ArithmeticOp → String
  | add => "+"
  | subtract => "-"
  | multiply => "*"
  | divide => "/"
  | modulo => "%"

/-- Bitwise operators. -/
inductive BitwiseOp where
  | and
  | or
  | xor
  | leftShift
  | rightShift
deriving DecidableEq

/-- The symbol of a bitwise operator. -/
def BitwiseOp.symbol : BitwiseOp → String
  | and => "&"
  | or => "|"
  | xor => "^"
  | leftShift => "<<"
  | rightShift => ">>"

end RowQuery
