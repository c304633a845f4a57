import RowQuery.Form.Read
import RowQuery.Form.Write
import RowQuery.Proofs.Calendar.Literals

/-! # Queries read back from their JSON form

Reading the JSON form of a query gives that query and nothing else
(`RowQuery.Query.ofNode?_toNode_eq_some_iff`). It fails only over a literal that no form can say: a
float that is not finite, or a date, a time or a timestamp that no text stands for.
-/

namespace RowQuery

/-! ### Operators -/

theorem ComparisonOp.ofFormName?_formName (operator : ComparisonOp) :
    ofFormName? operator.formName = some operator := by
  cases operator <;> rfl

theorem LogicalOp.ofFormName?_formName (operator : LogicalOp) :
    ofFormName? operator.formName = some operator := by
  cases operator <;> rfl

theorem ArithmeticOp.ofFormName?_formName (operator : ArithmeticOp) :
    ofFormName? operator.formName = some operator := by
  cases operator <;> rfl

theorem BitwiseOp.ofFormName?_formName (operator : BitwiseOp) :
    ofFormName? operator.formName = some operator := by
  cases operator <;> rfl

/-! ### Literals -/

namespace Literal

/-- Whether the reader of the JSON form can give a literal: a float is finite, and a date, a time or
a timestamp is what some text says. -/
def Readable : Literal → Prop
  | .float value => value.isFinite = true
  | .date value => ∃ text, Loose.date? text = some value
  | .time value => ∃ text, Loose.time? text = some value
  | .timestamp value => ∃ text, Loose.dateTime? text = some value
  | _ => True

theorem recovers_toNode (place : Place) (literal : Literal) :
    Recovers (ofNode? place literal.toNode) literal literal.Readable := by
  have valued (type : String) (value : Node) :
      ofNode? place (.object [("type", .text type), ("value", value)]) = ofValue? type value := rfl
  cases literal with
  | string value => exact .of_some rfl trivial
  | integer value =>
      rw [toNode, valued, ofValue?, Number.toInt64?_ofInt64]
      exact .of_some rfl trivial
  | float value =>
      rw [toNode, valued]
      by_cases finite : value.isFinite = true
      · have shown : Value.floatNode value = .number (.decimal value finite) := by
          rw [Value.floatNode, Number.ofFloat?, dif_pos finite]
        rw [shown]
        exact .of_some rfl finite
      · have shown : Value.floatNode value = .null := by
          rw [Value.floatNode, Number.ofFloat?, dif_neg finite]
        rw [shown]
        exact .of_none rfl finite
  | boolean value => exact .of_some rfl trivial
  | null => exact .of_some rfl trivial
  | date value =>
      have read : ofValue? "date" (.text value.text) = (Loose.date? value.text).map date := rfl
      rw [toNode, valued, read]
      exact (Loose.recovers_date value).map date
  | time value =>
      have read : ofValue? "time" (.text value.text) = (Loose.time? value.text).map time := rfl
      rw [toNode, valued, read]
      exact (Loose.recovers_time value).map time
  | timestamp value =>
      have read : ofValue? "timestamp" (.text value.text) =
          (Loose.dateTime? value.text).map timestamp := rfl
      rw [toNode, valued, read]
      exact (Loose.recovers_dateTime value).map timestamp

end Literal

/-! ### Expressions -/

namespace Expr

mutual

/-- The literals in an expression, in order. -/
def literals : Expr → List Literal
  | .literal value => [value]
  | .list items | .function _ items => literalsOfItems items
  | .comparison left _ right | .logical left _ right | .arithmetic left _ right
  | .bitwise left _ right | .member left right _ | .like left right _ =>
    left.literals ++ right.literals
  | .not expression | .parenthesis expression | .isNull expression _ | .cast expression _ =>
    expression.literals
  | .between field low high _ => field.literals ++ (low.literals ++ high.literals)
  | .caseWhen branches otherwise => literalsOfBranches branches ++ literalsOfOption otherwise
  | .column _ | .subquery _ | .wildcard | .parameter _ => []

/-- The literals in several expressions. -/
def literalsOfItems : List Expr → List Literal
  | [] => []
  | item :: rest => item.literals ++ literalsOfItems rest

/-- The literals in the branches of a case distinction. -/
def literalsOfBranches : List (Expr × Expr) → List Literal
  | [] => []
  | (condition, result) :: rest =>
    (condition.literals ++ result.literals) ++ literalsOfBranches rest

/-- The literals in an expression that may be left out. -/
def literalsOfOption : Option Expr → List Literal
  | none => []
  | some expression => expression.literals

end

/-- The tag of a written expression is a text, so the place of the form makes no difference. -/
theorem ofNode?_toNode (expression : Expr) :
    ofNode? expression.toNode = (Reading.ofNode expression.toNode).expr? := by
  cases expression <;> rfl

/-- No expression is written as null. -/
theorem optionalExpr?_toNode (expression : Expr) :
    (Reading.ofNode expression.toNode).optionalExpr? =
      (Reading.ofNode expression.toNode).expr?.map some := by
  cases expression <;> rfl

theorem node_ofNode (node : Node) : (Reading.ofNode node).node = node := by
  cases node <;> rfl

theorem pair?_ofNode (condition result : Node) :
    (Reading.ofNode (.array [condition, result])).pair? = do
      return (← (Reading.ofNode condition).expr?, ← (Reading.ofNode result).expr?) := by
  have items : (Reading.ofNode (.array [condition, result])).exprs? =
      [Reading.ofNode condition, Reading.ofNode result].mapM (·.expr?) := rfl
  rw [Reading.pair?, items, List.mapM_cons, List.mapM_cons, List.mapM_nil]
  cases (Reading.ofNode condition).expr? with
  | none => rfl
  | some first =>
      cases (Reading.ofNode result).expr? with
      | none => rfl
      | some second => rfl

/-- Whether an expression is read back from its form if its literals can be read, and nothing is
read otherwise. -/
def RoundTrips (expression : Expr) : Prop :=
  Recovers (Reading.ofNode expression.toNode).expr? expression
    (∀ literal ∈ expression.literals, literal.Readable)

/-- An expression is read back if its form is read by parts that recover it. -/
theorem RoundTrips.of_parts {expression : Expr} {reading : Option Expr}
    (parts : Recovers reading expression (∀ literal ∈ expression.literals, literal.Readable))
    (reads : (Reading.ofNode expression.toNode).expr? = reading) : expression.RoundTrips := by
  rw [RoundTrips, reads]
  exact parts

/-- Two operands with an operator between them, which is read under its name. -/
theorem RoundTrips.operation {ω : Type} {left right : Expr} {operator : ω} {name : String}
    {ofName? : String → Option ω} (first : left.RoundTrips)
    (named : ofName? name = some operator) (second : right.RoundTrips)
    (make : Expr → ω → Expr → Expr) :
    Recovers (do
      return make (← (Reading.ofNode left.toNode).expr?) (← ofName? name)
        (← (Reading.ofNode right.toNode).expr?))
      (make left operator right) (∀ literal ∈ left.literals ++ right.literals, literal.Readable) :=
  first.append (.sure named (second.last (make left operator)))

mutual

/-- Every expression is read back from its form. The tag and the names of a form are known, so what
is read of it computes to what is read of its parts, in their order. -/
theorem roundTrips : (expression : Expr) → expression.RoundTrips
  | .column name => .leaf rfl
  | .literal value => by
      have reads : (Reading.ofNode (literal value).toNode).expr? = do
          return literal (← Literal.ofNode? .inner (Reading.ofNode value.toNode).node) := rfl
      rw [RoundTrips, reads, node_ofNode, literals, List.forall_mem_singleton]
      exact (Literal.recovers_toNode .inner value).last _
  | .list items => .of_parts ((recovers_toNodes items).last list) rfl
  | .comparison left operator right =>
      .of_parts ((roundTrips left).operation operator.ofFormName?_formName (roundTrips right)
        comparison) rfl
  | .logical left operator right =>
      .of_parts ((roundTrips left).operation operator.ofFormName?_formName (roundTrips right)
        logical) rfl
  | .not expression => .of_parts ((roundTrips expression).last not) rfl
  | .parenthesis expression => .of_parts ((roundTrips expression).last parenthesis) rfl
  | .between field low high negated => by
      have parts : Recovers (do
          return between (← (Reading.ofNode field.toNode).expr?)
            (← (Reading.ofNode low.toNode).expr?) (← (Reading.ofNode high.toNode).expr?) negated)
          (between field low high negated) _ :=
        (roundTrips field).append
          ((roundTrips low).pair (roundTrips high) (between field · · negated))
      exact .of_parts parts rfl
  | .member left right negated =>
      .of_parts ((roundTrips left).pair (roundTrips right) (member · · negated)) rfl
  | .arithmetic left operator right =>
      .of_parts ((roundTrips left).operation operator.ofFormName?_formName (roundTrips right)
        arithmetic) rfl
  | .function name args => .of_parts ((recovers_toNodes args).last (function name)) rfl
  | .like target pattern negated =>
      .of_parts ((roundTrips target).pair (roundTrips pattern) (like · · negated)) rfl
  | .isNull target negated => .of_parts ((roundTrips target).last (isNull · negated)) rfl
  | .cast expression dataType => .of_parts ((roundTrips expression).last (cast · dataType)) rfl
  | .caseWhen branches otherwise =>
      .of_parts ((recovers_branchNodes branches).pair (recovers_optionalNode otherwise) caseWhen)
        rfl
  | .bitwise left operator right =>
      .of_parts ((roundTrips left).operation operator.ofFormName?_formName (roundTrips right)
        bitwise) rfl
  | .subquery sql => .leaf rfl
  | .wildcard => .leaf rfl
  | .parameter none => .leaf rfl
  | .parameter (some name) => .leaf rfl

theorem recovers_toNodes : (items : List Expr) → Recovers
    ((Reading.ofItems (toNodes items)).mapM Reading.expr?) items
    (∀ literal ∈ literalsOfItems items, literal.Readable)
  | [] => .leaf rfl
  | item :: rest => by
      rw [toNodes, Reading.ofItems, List.mapM_cons]
      exact (roundTrips item).append ((recovers_toNodes rest).last (item :: ·))

theorem recovers_branchNodes : (branches : List (Expr × Expr)) → Recovers
    ((Reading.ofItems (branchNodes branches)).mapM Reading.pair?) branches
    (∀ literal ∈ literalsOfBranches branches, literal.Readable)
  | [] => .leaf rfl
  | (condition, result) :: rest => by
      have branch := (roundTrips condition).pair (roundTrips result) Prod.mk
      rw [branchNodes, Reading.ofItems, List.mapM_cons, pair?_ofNode]
      exact branch.append ((recovers_branchNodes rest).last ((condition, result) :: ·))

theorem recovers_optionalNode : (expression? : Option Expr) → Recovers
    (Reading.ofNode (optionalNode expression?)).optionalExpr? expression?
    (∀ literal ∈ literalsOfOption expression?, literal.Readable)
  | none => .leaf rfl
  | some expression => by
      rw [optionalNode, optionalExpr?_toNode]
      exact (roundTrips expression).map some

end

end Expr

/-! ### Selectors and queries -/

/-- The literals in a selector. -/
def Selector.literals : Selector → List Literal
  | .expression shown _ => shown.literals
  | _ => []

theorem Selector.recovers_toNode (selector : Selector) :
    Recovers (ofNode? selector.toNode) selector
      (∀ literal ∈ selector.literals, literal.Readable) := by
  cases selector with
  | allColumns => exact .leaf rfl
  | wholeRow => exact .leaf rfl
  | expression shown label? =>
      have whole := shown.roundTrips.last (Selector.expression · label?)
      cases label? with
      | none => exact whole
      | some label => exact whole
  | tableWildcard table => exact .leaf rfl

theorem Selector.recovers_map_toNode (selectors : List Selector) :
    Recovers ((selectors.map toNode).mapM ofNode?) selectors
      (∀ literal ∈ selectors.flatMap literals, literal.Readable) := by
  induction selectors with
  | nil => exact .leaf rfl
  | cons selector rest ih =>
      rw [List.map_cons, List.mapM_cons, List.flatMap_cons]
      exact selector.recovers_toNode.append (ih.last (selector :: ·))

namespace Query

/-- The literals in a query. -/
def literals (query : Query) : List Literal :=
  Expr.literalsOfOption query.filter ++ query.selectors.flatMap Selector.literals

theorem recovers_filter (filter : Option Expr) :
    Recovers (Expr.optionalOfNode? (Expr.optionalNode filter)) filter
      (∀ literal ∈ Expr.literalsOfOption filter, literal.Readable) := by
  cases filter with
  | none => exact .leaf rfl
  | some condition =>
      have shown : Expr.optionalOfNode? (Expr.optionalNode (some condition)) =
          (Expr.ofNode? condition.toNode).map some := by
        cases condition <;> rfl
      rw [shown, Expr.ofNode?_toNode]
      exact condition.roundTrips.map some

/-- **Queries are read back from their JSON form.** The query is recovered if each of its literals
can be read; in no case is another query read. -/
theorem ofNode?_toNode_eq_some_iff (query other : Query) : ofNode? query.toNode = some other ↔
    other = query ∧ ∀ literal ∈ query.literals, literal.Readable := by
  obtain ⟨root, filter, selectors, distinct⟩ := query
  have whole := (recovers_filter filter).pair (Selector.recovers_map_toNode selectors)
    (Query.mk root · · distinct)
  exact whole other

end Query

end RowQuery
