import RowQuery.Condition.Arithmetic
import RowQuery.Path.Collect
import RowQuery.Path.Resolve

/-! # Operands

An operand is evaluated against one row: a literal stands for itself, a column is resolved strictly,
and a match function collects a multi value. Every other construct is refused by name.
-/

namespace RowQuery

/-- The value of a column; an absent path is reported as a missing column. -/
def columnValue (config : Config) (row : Node) (name : String) : Except QueryError Value :=
  match (Path.mk name).resolve .strict row with
  | .ok node => .ok (.ofNode config.inferTemporal node)
  | .error failure =>
    .error (if failure.isMissingPath then .columnNotFound name else failure)

/-- The mode that a query function selects, or the refusal of any other function. -/
def requireMode (name : String) : Except QueryError MatchMode :=
  match MatchMode.ofFunctionName? name with
  | some mode => .ok mode
  | none =>
    .error (.unsupportedExpression
      ("Function " ++ name ++ " (supported: " ++ MatchMode.options ++ ")"))

/-- The path that a match function is applied to: its single argument, a column. -/
def requirePath (name : String) (args : List Expr) : Except QueryError Path :=
  match args with
  | [.column path] => .ok ⟨path⟩
  | [_] =>
    .error (.invalidFunctionArgument ("Parameters for function " ++ name ++ " should be column"))
  | _ =>
    .error (.invalidFunctionArgument
      ("Invalid number of parameters. " ++ name ++ " expects 1 parameter, but got " ++
        Nat.repr args.length))

/-- The multi value that a match function gives. -/
def multiValue (config : Config) (row : Node) (name : String) (args : List Expr) :
    Except QueryError Value := do
  let mode ← requireMode name
  let path ← requirePath name args
  let nodes ← path.collect row
  return .multi mode (nodes.map (Value.ofNode config.inferTemporal))

/-- The value of an operand. -/
def Expr.value (config : Config) (row : Node) : Expr → Except QueryError Value
  | .literal value => .ok value.toValue
  | .column name => columnValue config row name
  | .function name args => multiValue config row name args
  | .parenthesis expression => expression.value config row
  | .arithmetic left operator right => do
    let left ← left.value config row
    let right ← right.value config row
    left.applyOp operator right
  | other => .error (.unsupportedExpression other.constructName)

end RowQuery
