import RowQuery.Expr.Literal
import RowQuery.Expr.Operator

/-! # Query expressions

One type holds conditions and operands alike. Constructs that are never evaluated have a
constructor too, so that they can be refused by name.
-/

namespace RowQuery

/-- An expression of a query. -/
inductive Expr where
  /-- A dotted path into the row. -/
  | column (name : String)
  | literal (value : Literal)
  /-- A list of values in parentheses, on either side of `IN`. -/
  | list (items : List Expr)
  | comparison (left : Expr) (operator : ComparisonOp) (right : Expr)
  | logical (left : Expr) (operator : LogicalOp) (right : Expr)
  | not (expression : Expr)
  | parenthesis (expression : Expr)
  /-- A range test that includes both bounds. -/
  | between (field low high : Expr) (negated : Bool)
  /-- A membership test. -/
  | member (left right : Expr) (negated : Bool)
  | arithmetic (left : Expr) (operator : ArithmeticOp) (right : Expr)
  /-- A function call; only `matchAny` and `matchAll` are evaluated. -/
  | function (name : String) (args : List Expr)
  | like (target pattern : Expr) (negated : Bool)
  | isNull (target : Expr) (negated : Bool)
  | cast (expression : Expr) (dataType : String)
  | caseWhen (branches : List (Expr × Expr)) (otherwise : Option Expr)
  | bitwise (left : Expr) (operator : BitwiseOp) (right : Expr)
  /-- A nested query, kept as text. -/
  | subquery (sql : String)
  | wildcard
  /-- A parameter, named or not. -/
  | parameter (name : Option String)

namespace Expr

/-- The match function of a mode, applied to a path: all values under the path, for which the mode
combines the outcomes of a test. -/
def matching (mode : MatchMode) (path : String) : Expr :=
  .function mode.functionName [.column path]

/-- The values under a path, of which one must satisfy the comparison. -/
def matchAny (path : String) : Expr :=
  matching .matchAny path

/-- The values under a path, of which each must satisfy the comparison. -/
def matchAll (path : String) : Expr :=
  matching .matchAll path

/-- The name of a construct in messages. -/
def constructName : Expr → String
  | .column name => "Column " ++ name
  | .literal value => "Literal " ++ value.display
  | .list _ => "List"
  | .comparison _ operator _ => "Comparison " ++ operator.symbol
  | .logical _ operator _ => "Logical " ++ operator.name
  | .not _ => "Not"
  | .parenthesis _ => "Parenthesis"
  | .between _ _ _ _ => "Between"
  | .member _ _ _ => "In"
  | .arithmetic _ operator _ => "Arithmetic " ++ operator.symbol
  | .function name _ => "Function " ++ name
  | .like _ _ _ => "Like"
  | .isNull _ _ => "IsNull"
  | .cast _ dataType => "Cast to " ++ dataType
  | .caseWhen _ _ => "Case"
  | .bitwise _ operator _ => "Bitwise " ++ operator.symbol
  | .subquery _ => "SubSelect"
  | .wildcard => "Wildcard"
  | .parameter (some _) => "JdbcNamedParameter"
  | .parameter none => "JdbcParameter"

end Expr

end RowQuery
