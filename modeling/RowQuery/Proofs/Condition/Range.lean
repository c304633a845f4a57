import RowQuery.Proofs.Condition.Comparison

/-! # Range tests

A range test is made of two comparisons, with the lower and with the upper bound, though it checks
its operands on its own and before it compares any. It has a decision exactly if both comparisons
have one for every value of its field, and otherwise reports the first value that lacks one
(`RowQuery.Expr.holds_between`).
-/

namespace RowQuery

open Attempt

namespace Value

/-- Whether a property holds of a value, or of those values of a multi value that its mode asks
for. -/
def Quantifies (value : Value) (property : Value → Prop) : Prop :=
  match value with
  | .multi mode items => mode.Quantifies items property
  | single => property single

/-- The failure of a range test for an item that cannot be compared with both bounds: the item is no
number, or else the first of the bounds that is none does not match it. -/
def rangeFailure (low high item : Value) : QueryError :=
  if item.isNumeric then
    if low.isNumeric then
      .typeMismatch (item.promoteAmong [low, high]) "Between(end range)" high
    else .typeMismatch (item.promoteAmong [low, high]) "Between(start range)" low
  else .nonNumericBetween item.kind

/-- Whether an item can be compared with both bounds. -/
def Comparable (low high item : Value) : Prop :=
  Succeeds (item.compare .greaterEq low) ∧ Succeeds (item.compare .lessEq high)

variable {low high item : Value}

theorem comparable_iff :
    Comparable low high item ↔ item.isNumeric ∧ low.isNumeric ∧ high.isNumeric := by
  rw [Comparable, succeeds_compare_order_iff rfl, succeeds_compare_order_iff rfl]
  tauto

theorem isNumeric_promoteAmong (value : Value) (peers : List Value) :
    (value.promoteAmong peers).isNumeric = value.isNumeric := by
  cases value with
  | integer whole =>
      rw [promoteAmong]
      split
      · rfl
      · rfl
  | _ => rfl

theorem promoteAmong_of_not_isNumeric {value : Value} (other : value.isNumeric = false)
    (peers : List Value) : value.promoteAmong peers = value := by
  cases value with
  | integer whole => exact absurd other nofun
  | _ => rfl

/-- A number matches numbers and nothing else. -/
theorem requireMatching_of_isNumeric {left : Value} (number : left.isNumeric = true)
    (right : Value) (operator : String) :
    requireMatching left right operator =
      if right.isNumeric then .ok () else .error (.typeMismatch left operator right) := by
  cases left with
  | integer whole => cases right <;> rfl
  | float x => cases right <;> rfl
  | _ => exact absurd number nofun

/-- The check before a range test passes three numbers, and reports what else it meets first. -/
theorem requireRange_eq (low high item : Value) :
    requireRange low high item =
      if item.isNumeric ∧ low.isNumeric ∧ high.isNumeric then .ok ()
      else .error (rangeFailure low high item) := by
  unfold requireRange rangeFailure
  cases number : item.isNumeric with
  | false => simp only [Bool.false_eq_true, false_and, ↓reduceIte]
  | true =>
      have promoted := (isNumeric_promoteAmong item [low, high]).trans number
      simp only [requireMatching_of_isNumeric promoted, isNumeric_promoteAmong, ↓reduceIte,
        true_and]
      cases lowNumber : low.isNumeric with
      | false =>
          rw [promoteAmong_of_not_isNumeric lowNumber]
          rfl
      | true =>
          cases highNumber : high.isNumeric with
          | false =>
              rw [promoteAmong_of_not_isNumeric highNumber]
              rfl
          | true => rfl

/-- The check before a range test asks whether both comparisons are possible. -/
theorem requireRange_eq_ok_iff :
    requireRange low high item = .ok () ↔ Comparable low high item := by
  rw [requireRange_eq, comparable_iff]
  split
  · next numbers => exact iff_of_true rfl numbers
  · next others => exact iff_of_false nofun others

theorem succeeds_requireRange_iff :
    Succeeds (requireRange low high item) ↔ Comparable low high item := by
  rw [← requireRange_eq_ok_iff, Succeeds, Unique.exists_iff]

theorem requireRange_eq_error_iff {failure : QueryError} :
    requireRange low high item = .error failure ↔
      ¬ Comparable low high item ∧ failure = rangeFailure low high item := by
  rw [requireRange_eq, comparable_iff]
  split
  · next numbers => exact iff_of_false nofun fun both => both.1 numbers
  · next others => rw [and_iff_right others, Except.error.injEq, eq_comm]

/-! ### The decision -/

/-- A number lies between two bounds if both comparisons hold. -/
theorem within_iff : within low high item = true ↔
    item.compare .greaterEq low = .ok true ∧ item.compare .lessEq high = .ok true := by
  have ordered_iff {operator : ComparisonOp} (ordering : operator.isEquality = false)
      {wanted : Ordering → Bool} (asks : ∀ order, operator.accepts order = order.any wanted)
      (bound : Value) : ordered wanted item bound = true ↔
        item.compare operator bound = .ok true := by
    unfold ordered
    cases promoted : NumericPair.ofValues? item bound with
    | none =>
        exact iff_of_false nofun (compare_ne_ok_of_ofValues?_eq_none promoted ordering true)
    | some pair => rw [compare_eq_ok_true_iff promoted, asks, Option.bind_some]
  rw [within, Bool.and_eq_true]
  exact and_congr (ordered_iff rfl (fun _ => rfl) low) (ordered_iff rfl (fun _ => rfl) high)

theorem combine_map_eq_true_iff (mode : MatchMode) (items : List Value) (test : Value → Bool) :
    mode.combine (items.map test) = true ↔ mode.Quantifies items fun item => test item = true := by
  cases mode with
  | matchAny => simp [MatchMode.combine, MatchMode.Quantifies]
  | matchAll => simp [MatchMode.combine, MatchMode.Quantifies]

/-- The field of a range test is a multi value, or the only value that is tested. -/
theorem inRange_cases (field low high : Value) :
    (∃ mode items, field = .multi mode items) ∨
      field.sought = [field] ∧ (∀ property, field.Quantifies property ↔ property field) ∧
        inRange field low high =
          (requireRange low high field).map fun _ => within low high field := by
  cases field with
  | multi mode items => exact .inl ⟨mode, items, rfl⟩
  | _ => exact .inr ⟨rfl, fun _ => Iff.rfl, rfl⟩

/-- A range test is decided by comparing the values of its field with both bounds. -/
theorem decides_inRange (field low high : Value) :
    Decides (inRange field low high) (∀ item ∈ field.sought, Comparable low high item)
      (field.Quantifies fun item =>
        item.compare .greaterEq low = .ok true ∧ item.compare .lessEq high = .ok true) := by
  intro decision
  simp only [← requireRange_eq_ok_iff, ← within_iff]
  obtain ⟨mode, items, rfl⟩ | ⟨itself, quantifies, opened⟩ := inRange_cases field low high
  · simp only [inRange, bind_eq_ok_iff, forM_eq_ok_iff, pure_eq_ok_iff, exists_const]
    refine and_congr Iff.rfl ?_
    rw [eq_comm, Bool.eq_iff_iff, combine_map_eq_true_iff]
    rfl
  · rw [opened, map_eq_ok_iff, itself, List.forall_mem_singleton, quantifies, ← Bool.eq_iff_iff,
      @eq_comm _ decision, Unique.exists_iff]

/-- A range test fails for the first value of its field that cannot be compared with both bounds. -/
theorem inRange_eq_error_iff {field low high : Value} {failure : QueryError} :
    inRange field low high = .error failure ↔
      FirstFailure (requireRange low high) field.sought failure := by
  obtain ⟨mode, items, rfl⟩ | ⟨itself, -, opened⟩ := inRange_cases field low high
  · simp only [inRange, bind_eq_error_iff, forM_eq_error_iff, pure_ne_error, and_false,
      exists_false, or_false]
    rfl
  · rw [opened, map_eq_error_iff, itself, firstFailure_singleton_iff]

end Value

namespace Expr

variable {config : Config} {row : Node} {field low high : Expr} {found lower upper : Value}

/-- A range test of operands that have values tests the values, and may invert the outcome. -/
theorem holds_between_of_values (fieldValue : field.value config row = .ok found)
    (lowValue : low.value config row = .ok lower) (highValue : high.value config row = .ok upper)
    (negated : Bool) :
    (between field low high negated).holds config row =
      (found.inRange lower upper).map (· != negated) := by
  rw [holds, fieldValue, lowValue, highValue]
  rfl

/-- **Range tests as two comparisons.** Let the operands have values. The test has a decision
exactly if every value of the field can be compared with both bounds; it then says whether both
comparisons hold, inclusive of the bounds, for the only value or for some or all values by the mode,
and its negation says the opposite. Otherwise both fail for the first value that cannot be compared:
because it is no number, or else because a bound does not match it. -/
theorem holds_between (fieldValue : field.value config row = .ok found)
    (lowValue : low.value config row = .ok lower) (highValue : high.value config row = .ok upper) :
    let comparable := fun item : Value =>
      Succeeds (item.compare .greaterEq lower) ∧ Succeeds (item.compare .lessEq upper)
    let within := fun item : Value =>
      item.compare .greaterEq lower = .ok true ∧ item.compare .lessEq upper = .ok true
    Decides ((between field low high false).holds config row)
      (∀ item ∈ found.sought, comparable item) (found.Quantifies within) ∧
    Decides ((between field low high true).holds config row)
      (∀ item ∈ found.sought, comparable item) (¬ found.Quantifies within) ∧
    ∀ negated failure, (between field low high negated).holds config row = .error failure ↔
      ∃ before item after, found.sought = before ++ item :: after ∧
        (∀ earlier ∈ before, comparable earlier) ∧ ¬ comparable item ∧
        failure = Value.rangeFailure lower upper item := by
  intro comparable within
  have decides := found.decides_inRange lower upper
  refine ⟨fun decision => ?_, fun decision => ?_, fun negated failure => ?_⟩ <;>
    rw [holds_between_of_values fieldValue lowValue highValue]
  · rw [map_bne_eq_ok_iff, Bool.bne_false]
    exact decides decision
  · rw [map_bne_eq_ok_iff, Bool.bne_true, decides, Bool.not_eq_true', ← Bool.not_eq_true,
      not_iff_comm, iff_comm (a := ¬ _)]
    rfl
  · rw [map_eq_error_iff, Value.inRange_eq_error_iff, FirstFailure]
    simp only [Value.succeeds_requireRange_iff, Value.requireRange_eq_error_iff]
    rfl

/-- Of the numbers 1 and 5 some lies between 2 and 5.0, bounds included. A text among the numbers is
reported whether or not the test is negated. -/
theorem between_two_and_five :
    let row := Node.object [("a", .array [.number (.ofInt64 1), .number (.ofInt64 5)]),
      ("b", .array [.number (.ofInt64 1), .text "x"])]
    let low := literal (.integer 2)
    let high := literal (.float 5)
    (matching .matchAny "a").value {} row = .ok (.multi .matchAny [.integer 1, .integer 5]) ∧
    (matching .matchAny "b").value {} row = .ok (.multi .matchAny [.integer 1, .text "x"]) ∧
    low.value {} row = .ok (.integer 2) ∧ high.value {} row = .ok (.float 5) ∧
    (between (matching .matchAny "a") low high false).holds {} row = .ok true ∧
    (between (matching .matchAny "b") low high true).holds {} row =
      .error (.nonNumericBetween .text) := by
  intro row low high
  have numbers : (matching .matchAny "a").value {} row =
      .ok (.multi .matchAny [.integer 1, .integer 5]) := rfl
  have mixed : (matching .matchAny "b").value {} row =
      .ok (.multi .matchAny [.integer 1, .text "x"]) := rfl
  have lowValue : low.value {} row = .ok (.integer 2) := rfl
  have highValue : high.value {} row = .ok (.float 5) := rfl
  have comparable (whole : Int64) :
      Succeeds (Value.compare (.integer whole) .greaterEq (.integer 2)) ∧
        Succeeds (Value.compare (.integer whole) .lessEq (.float 5)) := ⟨⟨_, rfl⟩, ⟨_, rfl⟩⟩
  refine ⟨numbers, mixed, lowValue, highValue, ?_, ?_⟩
  · refine ((holds_between numbers lowValue highValue).1 true).mpr ⟨?_, iff_of_true rfl ?_⟩
    · exact List.forall_mem_cons.mpr ⟨comparable 1, List.forall_mem_singleton.mpr (comparable 5)⟩
    · exact ⟨.integer 5, List.mem_cons_of_mem _ List.mem_cons_self, rfl, rfl⟩
  · refine ((holds_between mixed lowValue highValue).2.2 true _).mpr
      ⟨[.integer 1], .text "x", [], rfl, ?_, ?_, rfl⟩
    · exact List.forall_mem_singleton.mpr (comparable 1)
    · rintro ⟨⟨decision, compared⟩, -⟩
      exact absurd compared nofun

end Expr

end RowQuery
