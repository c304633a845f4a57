import RowQuery.Expr.Basic

/-! # The text of expressions -/

namespace RowQuery.Expr

/-- The keyword of a negated test, with the space after it. -/
def negation (negated : Bool) : String :=
  if negated then "NOT " else ""

mutual

/-- The text of an expression in query notation. -/
def display : Expr → String
  | .column name => name
  | .literal value => value.display
  | .list items => "(" ++ String.intercalate ", " (displays items) ++ ")"
  | .comparison left operator right =>
    left.display ++ " " ++ operator.symbol ++ " " ++ right.display
  | .logical left operator right =>
    left.display ++ " " ++ operator.keyword ++ " " ++ right.display
  | .not expression => "NOT " ++ expression.display
  | .parenthesis expression => "(" ++ expression.display ++ ")"
  | .between field low high negated =>
    field.display ++ " " ++ negation negated ++ "BETWEEN " ++ low.display ++ " AND " ++ high.display
  | .member left right negated =>
    left.display ++ " " ++ negation negated ++ "IN " ++ right.display
  | .arithmetic left operator right =>
    left.display ++ " " ++ operator.symbol ++ " " ++ right.display
  | .function name args => name ++ "(" ++ String.intercalate ", " (displays args) ++ ")"
  | .like target pattern negated =>
    target.display ++ " " ++ negation negated ++ "LIKE " ++ pattern.display
  | .isNull target negated => target.display ++ " IS " ++ negation negated ++ "NULL"
  | .cast expression dataType => "CAST(" ++ expression.display ++ " AS " ++ dataType ++ ")"
  | .caseWhen branches otherwise =>
    "CASE" ++ displayBranches branches ++ displayOtherwise otherwise ++ " END"
  | .bitwise left operator right =>
    left.display ++ " " ++ operator.symbol ++ " " ++ right.display
  | .subquery sql => "(" ++ sql ++ ")"
  | .wildcard => "*"
  | .parameter (some name) => ":" ++ name
  | .parameter none => "?"

/-- The texts of several expressions. -/
def displays : List Expr → List String
  | [] => []
  | item :: rest => item.display :: displays rest

/-- The text of the branches of a case distinction. -/
def displayBranches : List (Expr × Expr) → String
  | [] => ""
  | (condition, result) :: rest =>
    " WHEN " ++ condition.display ++ " THEN " ++ result.display ++ displayBranches rest

/-- The text of the last resort of a case distinction. -/
def displayOtherwise : Option Expr → String
  | none => ""
  | some expression => " ELSE " ++ expression.display

end

end RowQuery.Expr
