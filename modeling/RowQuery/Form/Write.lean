import RowQuery.Form.Names
import RowQuery.Query

/-! # Writing queries as JSON

Expressions and selectors are objects whose field `kind` names the construct; literals are objects
with a `type` and, null apart, a `value`. Fields stand in a fixed order.
-/

namespace RowQuery

/-- The object of a literal. -/
def Literal.toNode : Literal → Node
  | .string value => .object [("type", .text "string"), ("value", .text value)]
  | .integer value => .object [("type", .text "integer"), ("value", .number (.ofInt64 value))]
  | .float value => .object [("type", .text "float"), ("value", Value.floatNode value)]
  | .boolean value => .object [("type", .text "boolean"), ("value", .boolean value)]
  | .null => .object [("type", .text "null")]
  | .date value => .object [("type", .text "date"), ("value", .text value.text)]
  | .time value => .object [("type", .text "time"), ("value", .text value.text)]
  | .timestamp value => .object [("type", .text "timestamp"), ("value", .text value.text)]

/-- The node of an optional text. -/
def optionalText : Option String → Node
  | some text => .text text
  | none => .null

namespace Expr

mutual

/-- The object of an expression. -/
def toNode : Expr → Node
  | .column name => .object [("kind", .text "column"), ("name", .text name)]
  | .literal value => .object [("kind", .text "literal"), ("value", value.toNode)]
  | .list items => .object [("kind", .text "list"), ("items", .array (toNodes items))]
  | .comparison left operator right =>
    .object [("kind", .text "comparison"), ("left", left.toNode),
      ("operator", .text operator.formName), ("right", right.toNode)]
  | .logical left operator right =>
    .object [("kind", .text "logical"), ("left", left.toNode),
      ("operator", .text operator.formName), ("right", right.toNode)]
  | .not expression => .object [("kind", .text "not"), ("expression", expression.toNode)]
  | .parenthesis expression =>
    .object [("kind", .text "parenthesis"), ("expression", expression.toNode)]
  | .between field low high negated =>
    .object [("kind", .text "between"), ("field", field.toNode), ("low", low.toNode),
      ("high", high.toNode), ("negated", .boolean negated)]
  | .member left right negated =>
    .object [("kind", .text "in"), ("left", left.toNode), ("right", right.toNode),
      ("negated", .boolean negated)]
  | .arithmetic left operator right =>
    .object [("kind", .text "arithmetic"), ("left", left.toNode),
      ("operator", .text operator.formName), ("right", right.toNode)]
  | .function name args =>
    .object [("kind", .text "function"), ("name", .text name), ("args", .array (toNodes args))]
  | .like target pattern negated =>
    .object [("kind", .text "like"), ("target", target.toNode), ("pattern", pattern.toNode),
      ("negated", .boolean negated)]
  | .isNull target negated =>
    .object [("kind", .text "is_null"), ("target", target.toNode), ("negated", .boolean negated)]
  | .cast expression dataType =>
    .object [("kind", .text "cast"), ("expression", expression.toNode),
      ("data_type", .text dataType)]
  | .caseWhen branches otherwise =>
    .object [("kind", .text "case"), ("when_clauses", .array (branchNodes branches)),
      ("else_clause", optionalNode otherwise)]
  | .bitwise left operator right =>
    .object [("kind", .text "bitwise"), ("left", left.toNode),
      ("operator", .text operator.formName), ("right", right.toNode)]
  | .subquery sql => .object [("kind", .text "subquery"), ("sql", .text sql)]
  | .wildcard => .object [("kind", .text "wildcard")]
  | .parameter name => .object [("kind", .text "parameter"), ("name", optionalText name)]

/-- The objects of several expressions. -/
def toNodes : List Expr → List Node
  | [] => []
  | item :: rest => item.toNode :: toNodes rest

/-- The branches of a case distinction, each as an array of condition and result. -/
def branchNodes : List (Expr × Expr) → List Node
  | [] => []
  | (condition, result) :: rest => .array [condition.toNode, result.toNode] :: branchNodes rest

/-- The object of an expression that may be left out. -/
def optionalNode : Option Expr → Node
  | none => .null
  | some expression => expression.toNode

end

end Expr

/-- The object of a selector. -/
def Selector.toNode : Selector → Node
  | .allColumns => .object [("kind", .text "all_columns")]
  | .wholeRow => .object [("kind", .text "whole_row")]
  | .expression shown label? =>
    .object [("kind", .text "expression"), ("expression", shown.toNode),
      ("alias", optionalText label?)]
  | .tableWildcard table => .object [("kind", .text "table_wildcard"), ("table", .text table)]

/-- The object of a query. -/
def Query.toNode (query : Query) : Node :=
  .object [("root_path", .text query.root), ("filter", Expr.optionalNode query.filter),
    ("projections", .array (query.selectors.map Selector.toNode)),
    ("distinct", .boolean query.distinct)]

/-- The object of the switches. -/
def Config.toNode (config : Config) : Node :=
  .object [("strict_result_row_existence", .boolean config.strictRows),
    ("infer_temporal_text", .boolean config.inferTemporal)]

end RowQuery
