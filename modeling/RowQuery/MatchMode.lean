/-! # Match modes

A path that crosses arrays reaches several values. The query functions `matchAny` and `matchAll` say
how the outcomes for the single values combine into one.
-/

namespace RowQuery

/-- How the outcomes for several values combine. -/
inductive MatchMode where
  /-- At least one value must satisfy the predicate. -/
  | matchAny
  /-- Every value must satisfy the predicate. -/
  | matchAll
deriving DecidableEq

namespace MatchMode

/-- Every mode, in the order in which they are offered. -/
def all : List MatchMode := [matchAny, matchAll]

/-- The query function that selects a mode. -/
def functionName : MatchMode → String
  | matchAny => "matchAny"
  | matchAll => "matchAll"

/-- The mode that a query function selects. -/
def ofFunctionName? (name : String) : Option MatchMode :=
  all.find? fun mode => mode.functionName = name

/-- The names of all query functions that select a mode. -/
def options : String :=
  String.intercalate ", " (all.map functionName)

/-- The mode's name in JSON text. -/
def formName : MatchMode → String
  | matchAny => "MatchAny"
  | matchAll => "MatchAll"

/-- Combine the outcomes for the single values. -/
def combine : MatchMode → List Bool → Bool
  | matchAny, outcomes => outcomes.any id
  | matchAll, outcomes => outcomes.all id

/-- A mode is found again under its function name. -/
theorem ofFunctionName?_functionName (mode : MatchMode) :
    ofFunctionName? mode.functionName = some mode := by
  cases mode <;> decide

end MatchMode

end RowQuery
