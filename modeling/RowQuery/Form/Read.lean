import RowQuery.Calendar.Loose
import RowQuery.Form.Names
import RowQuery.Form.Parts
import RowQuery.Query

/-! # Reading queries from JSON

What `toNode` writes is read back, and more: parts may stand in any order, be listed in an array, or
be left out where they have a default. A form of any other shape is refused.
-/

namespace RowQuery

namespace Literal

/-- The value of a literal of a type. -/
def ofValue? (type : String) (value : Node) : Option Literal :=
  match type, value with
  | "string", .text value => some (.string value)
  | "integer", .number value => value.toInt64?.map .integer
  | "float", .number value => some (.float value.toFloat)
  | "boolean", .boolean value => some (.boolean value)
  | "null", .null => some .null
  | "date", .text value => (Loose.date? value).map .date
  | "time", .text value => (Loose.time? value).map .time
  | "timestamp", .text value => (Loose.dateTime? value).map .timestamp
  | _, _ => none

/-- The types of literals, in order. -/
def types : List String :=
  ["string", "integer", "float", "boolean", "null", "date", "time", "timestamp"]

/-- The type that the parts of a literal give. It is a plain choice where it is named and a tag
where it stands first in a list. -/
def type? (place : Place) (parts : Parts Node) : Option String := do
  let type ← parts.required "type"
  if parts.listed then tag? place types type else choice? place type

/-- The literal that a node writes: its type and its value, which a null literal may leave out of
the object. -/
def ofNode? (place : Place) (node : Node) : Option Literal := do
  let parts ← (← node.content?).parts? ["type", "value"]
  let type ← type? place parts
  match parts.required "value" with
  | some value => ofValue? type value
  | none => if type = "null" ∧ parts.listed = false then some .null else none

end Literal

/-- What a node may be read as inside an expression. -/
structure Reading where
  /-- The node itself. -/
  node : Node
  /-- The expression that the node writes. -/
  expr? : Option Expr
  /-- The expressions that the items of the node write. -/
  exprs? : Option (List Expr)
  /-- The pairs of expressions that the items of the node write. -/
  pairs? : Option (List (Expr × Expr))

namespace Reading

/-- The text of a node. -/
def text? (reading : Reading) : Option String :=
  reading.node.text?

/-- The truth value of a node. -/
def boolean? (reading : Reading) : Option Bool :=
  reading.node.boolean?

/-- The expression that a node writes, or nothing for null. -/
def optionalExpr? (reading : Reading) : Option (Option Expr) :=
  match reading.node with
  | .null => some none
  | _ => reading.expr?.map some

/-- The two expressions that the items of a node write. -/
def pair? (reading : Reading) : Option (Expr × Expr) :=
  match reading.exprs? with
  | some [condition, result] => some (condition, result)
  | _ => none

end Reading

namespace Expr

/-- The tags of expressions, in order. -/
def kinds : List String :=
  ["column", "literal", "list", "comparison", "logical", "not", "parenthesis", "between", "in",
    "arithmetic", "function", "like", "is_null", "cast", "case", "bitwise", "subquery", "wildcard",
    "parameter"]

/-- The operator under the name that a reading gives. -/
def operator? {α : Type} (ofName? : String → Option α) (reading : Reading) : Option α :=
  (choice? .inner reading.node).bind ofName?

/-- The expression of a kind with this content. -/
def ofContent? (kind : String) (content : Content Reading) : Option Expr :=
  match kind with
  | "column" => do
    let parts ← content.parts? ["name"]
    return .column (← (← parts.required "name").text?)
  | "literal" => do
    let parts ← content.parts? ["value"]
    return .literal (← Literal.ofNode? .inner (← parts.required "value").node)
  | "list" => do
    let parts ← content.parts? ["items"]
    return .list (← (← parts.required "items").exprs?)
  | "comparison" => do
    let parts ← content.parts? ["left", "operator", "right"]
    return .comparison (← (← parts.required "left").expr?)
      (← operator? ComparisonOp.ofFormName? (← parts.required "operator"))
      (← (← parts.required "right").expr?)
  | "logical" => do
    let parts ← content.parts? ["left", "operator", "right"]
    return .logical (← (← parts.required "left").expr?)
      (← operator? LogicalOp.ofFormName? (← parts.required "operator"))
      (← (← parts.required "right").expr?)
  | "not" => do
    let parts ← content.parts? ["expression"]
    return .not (← (← parts.required "expression").expr?)
  | "parenthesis" => do
    let parts ← content.parts? ["expression"]
    return .parenthesis (← (← parts.required "expression").expr?)
  | "between" => do
    let parts ← content.parts? ["field", "low", "high", "negated"]
    return .between (← (← parts.required "field").expr?) (← (← parts.required "low").expr?)
      (← (← parts.required "high").expr?) (← parts.orElse "negated" false Reading.boolean?)
  | "in" => do
    let parts ← content.parts? ["left", "right", "negated"]
    return .member (← (← parts.required "left").expr?) (← (← parts.required "right").expr?)
      (← parts.orElse "negated" false Reading.boolean?)
  | "arithmetic" => do
    let parts ← content.parts? ["left", "operator", "right"]
    return .arithmetic (← (← parts.required "left").expr?)
      (← operator? ArithmeticOp.ofFormName? (← parts.required "operator"))
      (← (← parts.required "right").expr?)
  | "function" => do
    let parts ← content.parts? ["name", "args"]
    return .function (← (← parts.required "name").text?) (← (← parts.required "args").exprs?)
  | "like" => do
    let parts ← content.parts? ["target", "pattern", "negated"]
    return .like (← (← parts.required "target").expr?) (← (← parts.required "pattern").expr?)
      (← parts.orElse "negated" false Reading.boolean?)
  | "is_null" => do
    let parts ← content.parts? ["target", "negated"]
    return .isNull (← (← parts.required "target").expr?)
      (← parts.orElse "negated" false Reading.boolean?)
  | "cast" => do
    let parts ← content.parts? ["expression", "data_type"]
    return .cast (← (← parts.required "expression").expr?)
      (← (← parts.required "data_type").text?)
  | "case" => do
    let parts ← content.parts? ["when_clauses", "else_clause"]
    return .caseWhen (← (← parts.required "when_clauses").pairs?)
      (← parts.orAbsent "else_clause" Reading.optionalExpr?)
  | "bitwise" => do
    let parts ← content.parts? ["left", "operator", "right"]
    return .bitwise (← (← parts.required "left").expr?)
      (← operator? BitwiseOp.ofFormName? (← parts.required "operator"))
      (← (← parts.required "right").expr?)
  | "subquery" => do
    let parts ← content.parts? ["sql"]
    return .subquery (← (← parts.required "sql").text?)
  | "wildcard" => if content.isBare then some .wildcard else none
  | "parameter" => do
    let parts ← content.parts? ["name"]
    return .parameter (← parts.orAbsent "name" fun reading => reading.node.optionalText?)
  | _ => none

/-- The expression of a tagged form. -/
def ofTagged? (place : Place) (form : Content Reading) : Option Expr := do
  let (tag, content) ← form.untag? "kind"
  ofContent? (← tag? place kinds tag.node) content

end Expr

namespace Reading

mutual

/-- The readings of a node inside an expression. -/
def ofNode : Node → Reading
  | .array items =>
    let readings := ofItems items
    { node := .array items
      expr? := Expr.ofTagged? .inner (.listed readings)
      exprs? := readings.mapM (·.expr?)
      pairs? := readings.mapM pair? }
  | .object fields =>
    { node := .object fields
      expr? := Expr.ofTagged? .inner (.named (ofFields fields))
      exprs? := none
      pairs? := none }
  | node => { node, expr? := none, exprs? := none, pairs? := none }

/-- The readings of several nodes. -/
def ofItems : List Node → List Reading
  | [] => []
  | item :: rest => ofNode item :: ofItems rest

/-- The readings of the fields of an object. -/
def ofFields : List (String × Node) → List (String × Reading)
  | [] => []
  | (name, entry) :: rest => (name, ofNode entry) :: ofFields rest

end

end Reading

/-- The expression that a node writes. -/
def Expr.ofNode? : Node → Option Expr
  | .array items => Expr.ofTagged? .outer (.listed (Reading.ofItems items))
  | .object fields => Expr.ofTagged? .outer (.named (Reading.ofFields fields))
  | _ => none

/-- The expression that a node writes, or nothing for null. -/
def Expr.optionalOfNode? : Node → Option (Option Expr)
  | .null => some none
  | node => (Expr.ofNode? node).map some

namespace Selector

/-- The tags of selectors, in order. -/
def kinds : List String :=
  ["all_columns", "whole_row", "expression", "table_wildcard"]

/-- The selector of a kind with this content. -/
def ofContent? (kind : String) (content : Content Node) : Option Selector :=
  match kind with
  | "all_columns" => if content.isBare then some .allColumns else none
  | "whole_row" => if content.isBare then some .wholeRow else none
  | "expression" => do
    let parts ← content.parts? ["expression", "alias"]
    return .expression (← (Reading.ofNode (← parts.required "expression")).expr?)
      (← parts.orElse "alias" none Node.optionalText?)
  | "table_wildcard" => do
    let parts ← content.parts? ["table"]
    return .tableWildcard (← (← parts.required "table").text?)
  | _ => none

/-- The selector that a node writes. -/
def ofNode? (node : Node) : Option Selector := do
  let (tag, content) ← (← node.content?).untag? "kind"
  ofContent? (← tag? .outer kinds tag) content

/-- The selectors that the items of a node write. -/
def listOfNode? : Node → Option (List Selector)
  | .array items => items.mapM ofNode?
  | _ => none

end Selector

/-- The query that a node writes. -/
def Query.ofNode? (node : Node) : Option Query := do
  let parts ← (← node.content?).parts? ["root_path", "filter", "projections", "distinct"]
  return {
    root := ← (← parts.required "root_path").text?
    filter := ← parts.orElse "filter" none Expr.optionalOfNode?
    selectors := ← Selector.listOfNode? (← parts.required "projections")
    distinct := ← parts.orElse "distinct" false Node.boolean? }

/-- The switches that a node writes; each one left out keeps its default. -/
def Config.ofNode? (node : Node) : Option Config := do
  let parts ← (← node.content?).parts? ["strict_result_row_existence", "infer_temporal_text"]
  return {
    strictRows := ← parts.orElse "strict_result_row_existence" true Node.boolean?
    inferTemporal := ← parts.orElse "infer_temporal_text" true Node.boolean? }

end RowQuery
