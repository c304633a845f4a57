import RowQuery.Proofs.Condition.Congruence

/-! # Parentheses

Parentheses group and mean nothing else: a condition that is decided with them is decided alike
without them (`RowQuery.Expr.holds_bare`). A condition that fails may be decided without them: the
lists of membership tests and the columns of match functions are recognized by their construct, and
refused in parentheses.
-/

namespace RowQuery

open Attempt

namespace Expr

/-! ### Taking parentheses off -/

mutual

/-- The expression without the parentheses in it, at any depth. -/
def bare : Expr → Expr
  | .parenthesis expression => expression.bare
  | .list items => .list (bareItems items)
  | .function name args => .function name (bareItems args)
  | .not expression => .not expression.bare
  | .comparison left operator right => .comparison left.bare operator right.bare
  | .logical left operator right => .logical left.bare operator right.bare
  | .between field low high negated => .between field.bare low.bare high.bare negated
  | .member left right negated => .member left.bare right.bare negated
  | .arithmetic left operator right => .arithmetic left.bare operator right.bare
  | .like target pattern negated => .like target.bare pattern.bare negated
  | .isNull target negated => .isNull target.bare negated
  | .cast expression dataType => .cast expression.bare dataType
  | .caseWhen branches otherwise => .caseWhen (bareBranches branches) (bareOption otherwise)
  | .bitwise left operator right => .bitwise left.bare operator right.bare
  | .column name => .column name
  | .literal value => .literal value
  | .subquery sql => .subquery sql
  | .wildcard => .wildcard
  | .parameter name => .parameter name

/-- Several expressions without the parentheses in them. -/
def bareItems : List Expr → List Expr
  | [] => []
  | item :: rest => item.bare :: bareItems rest

/-- The branches of a case distinction without the parentheses in them. -/
def bareBranches : List (Expr × Expr) → List (Expr × Expr)
  | [] => []
  | (condition, result) :: rest => (condition.bare, result.bare) :: bareBranches rest

/-- An expression that may be left out, without the parentheses in it. -/
def bareOption : Option Expr → Option Expr
  | none => none
  | some expression => some expression.bare

end

mutual

/-- Whether parentheses stand anywhere in an expression. -/
def hasParentheses : Expr → Bool
  | .parenthesis _ => true
  | .list items => itemsHaveParentheses items
  | .function _ args => itemsHaveParentheses args
  | .not expression => expression.hasParentheses
  | .isNull target _ => target.hasParentheses
  | .cast expression _ => expression.hasParentheses
  | .comparison left _ right => left.hasParentheses || right.hasParentheses
  | .logical left _ right => left.hasParentheses || right.hasParentheses
  | .member left right _ => left.hasParentheses || right.hasParentheses
  | .arithmetic left _ right => left.hasParentheses || right.hasParentheses
  | .like target pattern _ => target.hasParentheses || pattern.hasParentheses
  | .bitwise left _ right => left.hasParentheses || right.hasParentheses
  | .between field low high _ => field.hasParentheses || low.hasParentheses || high.hasParentheses
  | .caseWhen branches otherwise =>
    branchesHaveParentheses branches || optionHasParentheses otherwise
  | .column _ | .literal _ | .subquery _ | .wildcard | .parameter _ => false

/-- Whether parentheses stand anywhere in several expressions. -/
def itemsHaveParentheses : List Expr → Bool
  | [] => false
  | item :: rest => item.hasParentheses || itemsHaveParentheses rest

/-- Whether parentheses stand anywhere in the branches of a case distinction. -/
def branchesHaveParentheses : List (Expr × Expr) → Bool
  | [] => false
  | (condition, result) :: rest =>
    condition.hasParentheses || result.hasParentheses || branchesHaveParentheses rest

/-- Whether parentheses stand anywhere in an expression that may be left out. -/
def optionHasParentheses : Option Expr → Bool
  | none => false
  | some expression => expression.hasParentheses

end

mutual

/-- No parentheses are left. -/
theorem hasParentheses_bare (expression : Expr) : expression.bare.hasParentheses = false := by
  cases expression with
  | parenthesis expression => simpa only [bare] using hasParentheses_bare expression
  | list items => simpa only [bare, hasParentheses] using itemsHaveParentheses_bareItems items
  | function name args =>
      simpa only [bare, hasParentheses] using itemsHaveParentheses_bareItems args
  | not expression => simpa only [bare, hasParentheses] using hasParentheses_bare expression
  | isNull target negated => simpa only [bare, hasParentheses] using hasParentheses_bare target
  | cast expression dataType =>
      simpa only [bare, hasParentheses] using hasParentheses_bare expression
  | between field low high negated =>
      simp only [bare, hasParentheses, hasParentheses_bare field, hasParentheses_bare low,
        hasParentheses_bare high, Bool.or_self]
  | caseWhen branches otherwise =>
      simp only [bare, hasParentheses, branchesHaveParentheses_bareBranches branches,
        optionHasParentheses_bareOption otherwise, Bool.or_self]
  | comparison left _ right | logical left _ right | member left right _
  | arithmetic left _ right | like left right _ | bitwise left _ right =>
      simp only [bare, hasParentheses, hasParentheses_bare left, hasParentheses_bare right,
        Bool.or_self]
  | _ => simp only [bare, hasParentheses]

theorem itemsHaveParentheses_bareItems (items : List Expr) :
    itemsHaveParentheses (bareItems items) = false := by
  cases items with
  | nil => rfl
  | cons item rest =>
      simp only [bareItems, itemsHaveParentheses, hasParentheses_bare item,
        itemsHaveParentheses_bareItems rest, Bool.or_self]

theorem branchesHaveParentheses_bareBranches (branches : List (Expr × Expr)) :
    branchesHaveParentheses (bareBranches branches) = false := by
  cases branches with
  | nil => rfl
  | cons branch rest =>
      obtain ⟨condition, result⟩ := branch
      simp only [bareBranches, branchesHaveParentheses, hasParentheses_bare condition,
        hasParentheses_bare result, branchesHaveParentheses_bareBranches rest, Bool.or_self]

theorem optionHasParentheses_bareOption (otherwise : Option Expr) :
    optionHasParentheses (bareOption otherwise) = false := by
  cases otherwise with
  | none => rfl
  | some expression =>
      simpa only [bareOption, optionHasParentheses] using hasParentheses_bare expression

end

theorem bareItems_eq_map (items : List Expr) : bareItems items = items.map bare := by
  induction items with
  | nil => rfl
  | cons item rest ih => rw [bareItems, ih, List.map_cons]

end Expr

/-! ### Evaluation without parentheses -/

variable {config : Config} {row : Node}

/-- An operand that has a value has it without parentheses too. -/
theorem Expr.value_bare {operand : Expr} {value : Value}
    (evaluated : operand.value config row = .ok value) :
    operand.bare.value config row = .ok value := by
  fun_induction Expr.value config row operand generalizing value with
  | case1 literal => simpa only [bare, Expr.value] using evaluated
  | case2 name => simpa only [bare, Expr.value] using evaluated
  | case3 name args =>
      -- The argument of a match function is a column, which holds no parentheses.
      obtain ⟨mode, path, same⟩ := eq_matching_of_multiValue evaluated
      obtain ⟨rfl, rfl⟩ := Expr.function.inj same
      exact evaluated
  | case4 expression ih => exact ih evaluated
  | case5 left operator right ihLeft ihRight =>
      obtain ⟨first, leftValue, evaluated⟩ := bind_eq_ok_iff.mp evaluated
      obtain ⟨second, rightValue, applied⟩ := bind_eq_ok_iff.mp evaluated
      rw [bare, Expr.value, ihLeft leftValue, ihRight rightValue]
      exact applied
  | case6 other => cases evaluated

/-- The items of a list have the same values without parentheses. -/
theorem listValues_bareItems {items : List Expr} {values : List Value}
    (evaluated : listValues config row items = .ok values) :
    listValues config row (Expr.bareItems items) = .ok values := by
  obtain ⟨traversed, alike⟩ := listValues_eq_ok_iff.mp evaluated
  refine listValues_eq_ok_iff.mpr ⟨?_, alike⟩
  rw [mapM_eq_ok_iff] at traversed ⊢
  rw [Expr.bareItems_eq_map, List.forall₂_map_left_iff]
  exact traversed.imp fun _ _ found => Expr.value_bare found

/-- A side that has a value gives the candidates of this value on the right. -/
theorem rightCandidates_of_value {side : Expr} {value : Value}
    (resolved : side.value config row = .ok value) :
    rightCandidates config row side = .ok value.candidates := by
  have single : ∀ items, side ≠ .list items := by
    rintro items rfl
    exact absurd resolved nofun
  rw [rightCandidates_of_ne_list single, resolved]
  rfl

theorem leftCandidates_bare {side : Expr} {values : List Value}
    (resolved : leftCandidates config row side = .ok values) :
    leftCandidates config row side.bare = .ok values := by
  obtain ⟨items, rfl⟩ | single := side.list_or_single
  · exact listValues_bareItems resolved
  · -- The side has a value, so it is no list in parentheses, which would become one.
    rw [leftCandidates_of_ne_list single] at resolved
    obtain ⟨value, found, rfl⟩ := map_eq_ok_iff.mp resolved
    exact leftCandidates_of_value (Expr.value_bare found)

theorem rightCandidates_bare {side : Expr} {values : List Value}
    (resolved : rightCandidates config row side = .ok values) :
    rightCandidates config row side.bare = .ok values := by
  obtain ⟨items, rfl⟩ | single := side.list_or_single
  · exact listValues_bareItems resolved
  · rw [rightCandidates_of_ne_list single] at resolved
    obtain ⟨value, found, rfl⟩ := map_eq_ok_iff.mp resolved
    exact rightCandidates_of_value (Expr.value_bare found)

theorem membership_bare {left right : Expr} {negated decision : Bool}
    (decided : membership config row left right negated = .ok decision) :
    membership config row left.bare right.bare negated = .ok decision := by
  obtain ⟨lefts, leftResolved, decided⟩ := bind_eq_ok_iff.mp decided
  obtain ⟨rights, rightResolved, tested⟩ := bind_eq_ok_iff.mp decided
  rw [membership, leftCandidates_bare leftResolved, rightCandidates_bare rightResolved]
  exact tested

namespace Expr

theorem holds_bare_of_holds {condition : Expr} {decision : Bool}
    (decided : condition.holds config row = .ok decision) :
    condition.bare.holds config row = .ok decision := by
  fun_induction Expr.holds config row condition generalizing decision with
  | case1 left operator right ihLeft ihRight =>
      obtain ⟨first, leftDecided, decided⟩ := bind_eq_ok_iff.mp decided
      obtain ⟨second, rightDecided, combined⟩ := bind_eq_ok_iff.mp decided
      rw [bare, holds, ihLeft leftDecided, ihRight rightDecided]
      exact combined
  | case2 expression ih =>
      obtain ⟨inner, innerDecided, inverted⟩ := bind_eq_ok_iff.mp decided
      rw [bare, holds, ih innerDecided]
      exact inverted
  | case3 expression ih => exact ih decided
  | case4 left operator right =>
      obtain ⟨first, leftValue, decided⟩ := bind_eq_ok_iff.mp decided
      obtain ⟨second, rightValue, compared⟩ := bind_eq_ok_iff.mp decided
      rw [bare, holds, value_bare leftValue, value_bare rightValue]
      exact compared
  | case5 field low high negated =>
      obtain ⟨found, fieldValue, decided⟩ := bind_eq_ok_iff.mp decided
      obtain ⟨lower, lowValue, decided⟩ := bind_eq_ok_iff.mp decided
      obtain ⟨upper, highValue, tested⟩ := bind_eq_ok_iff.mp decided
      rw [bare, holds, value_bare fieldValue, value_bare lowValue, value_bare highValue]
      exact tested
  | case6 left right negated =>
      rw [bare, holds]
      exact membership_bare decided
  | case7 other => cases decided

/-- **Parentheses change no answer.** Taking off all parentheses, around conditions and operands, on
the sides of membership tests and in their lists, leaves a condition that is decided alike wherever
the given one is decided. -/
theorem holds_bare (config : Config) (row : Node) (condition : Expr) :
    condition.bare.hasParentheses = false ∧
    ∀ decision, condition.holds config row = .ok decision →
      condition.bare.holds config row = .ok decision :=
  ⟨hasParentheses_bare condition, fun _ => holds_bare_of_holds⟩

/-- `(NOT (1) IN ((2), 3)) AND (matchAny(a)) = (3 - (2))` keeps the row that `NOT 1 IN (2, 3) AND
matchAny(a) = 3 - 2` keeps. -/
theorem grouped_conjunction_is_kept :
    let row := Node.object [("a", .array [.number (.ofInt64 0), .number (.ofInt64 1)])]
    let whole := fun value : Int64 => literal (.integer value)
    let listed := list [parenthesis (whole 2), whole 3]
    let grouped := logical (parenthesis (.not (member (parenthesis (whole 1)) listed false))) .and
      (comparison (parenthesis (matching .matchAny "a")) .equal
        (parenthesis (arithmetic (whole 3) .subtract (parenthesis (whole 2)))))
    grouped.holds {} row = .ok true ∧
    (logical (.not (member (whole 1) (list [whole 2, whole 3]) false)) .and
      (comparison (matching .matchAny "a") .equal (arithmetic (whole 3) .subtract (whole 2)))).holds
        {} row = .ok true := by
  intro row whole listed grouped
  have decided : grouped.holds {} row = .ok true := rfl
  exact ⟨decided, (holds_bare {} row grouped).2 true decided⟩

/-- A list in parentheses is refused as an operand. -/
example :
    let one := literal (.integer 1)
    (member one (parenthesis (list [one])) false).holds {} .null =
      .error (.unsupportedExpression "List") ∧
    (member one (parenthesis (list [one])) false).bare.holds {} .null = .ok true :=
  ⟨rfl, rfl⟩

end Expr

end RowQuery
