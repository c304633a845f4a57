import Mathlib
import RowQuery.Proofs.Condition.Membership
import RowQuery.Proofs.Condition.MultiValue

/-! # Membership tests and equalities

A membership test in a list asks whether its operand equals one of the listed values, but not with
the equality of comparisons: it is structural, while comparisons promote numbers. The two equalities
differ only on numbers, and there only on the pairs that `RowQuery.Value.Discordant` lists. Where
none of these pairs is met, a membership test is the disjunction of the equalities
(`RowQuery.Expr.holds_member_iff_exists_equal`). Every kind of these pairs breaks that
(`RowQuery.Expr.member_tells_numbers_apart`).
-/

namespace RowQuery

open Attempt

namespace Value

/-- Two numbers on which structural equality and the equality of numbers differ: a whole number and
the float it widens to, zeros of opposite sign, and NaN with itself. -/
def Discordant : Value → Value → Prop
  | .integer whole, .float number => (widen whole == number) = true
  | .float number, .integer whole => (number == widen whole) = true
  | .float left, .float right =>
    left = .nan ∧ right = .nan ∨ left = 0 ∧ right = -0 ∨ left = -0 ∧ right = 0
  | _, _ => False

/-- The values that a membership test looks for on behalf of an operand. -/
def sought : Value → List Value
  | .multi _ items => items
  | single => [single]

theorem float_beq_eq_iff {left right : Float} :
    (left == right) = (left.toBits == right.toBits) ↔
      ¬ Discordant (.float left) (.float right) := by
  have zerosDiffer : (0 : Float) ≠ -0 := by decide
  have zero : (0 : Float) ≠ .nan := by decide
  have minusZero : (-0 : Float) ≠ .nan := by decide
  rw [Bool.eq_iff_iff, Float.beq_iff_ne_nan_and_eq, beq_iff_eq, Float.toBits_inj, Discordant]
  grind

/-- The two equalities agree exactly outside of the discordant pairs. -/
theorem promotedEqual_eq_beq_iff {left right : Value} :
    promotedEqual left right = (left == right) ↔ ¬ Discordant left right := by
  cases left with
  | integer whole =>
      cases right with
      | float number =>
          change (widen whole == number) = false ↔ ¬ (widen whole == number) = true
          exact Bool.not_eq_true _ ▸ Iff.rfl
      | _ => exact iff_of_true rfl id
  | float number =>
      cases right with
      | integer whole =>
          change (number == widen whole) = false ↔ ¬ (number == widen whole) = true
          exact Bool.not_eq_true _ ▸ Iff.rfl
      | float other => exact float_beq_eq_iff
      | _ => exact iff_of_true rfl id
  | _ => exact iff_of_true rfl id

/-- An equality that is decided is one after promotion, also where null is involved. -/
theorem equal_eq_ok_true_iff {left right : Value} (decided : Succeeds (equal left right)) :
    equal left right = .ok true ↔ promotedEqual left right = true := by
  obtain ⟨outcome, decided⟩ := decided
  have found : outcome = promotedEqual left right := by
    unfold equal at decided
    split at decided
    · next absent =>
        rw [Bool.or_eq_true, isNull_eq_true_iff, isNull_eq_true_iff] at absent
        rw [← Except.ok.inj decided]
        rcases absent with rfl | rfl
        · cases right <;> rfl
        · cases left <;> rfl
    · obtain ⟨_, -, decided⟩ := bind_eq_ok_iff.mp decided
      exact (pure_eq_ok_iff.mp decided).symm
  rw [decided, found, Except.ok.injEq]

theorem compareOperands_single {left right : Value} {operator : ComparisonOp}
    (leftSingle : ∀ mode items, left ≠ .multi mode items)
    (rightSingle : ∀ mode items, right ≠ .multi mode items) :
    compareOperands left operator right = compare left operator right := by
  unfold compareOperands
  split
  · next mode items _ _ => exact absurd rfl (leftSingle mode items)
  · next mode items _ => exact absurd rfl (leftSingle mode items)
  · next mode items _ => exact absurd rfl (rightSingle mode items)
  · rfl

theorem some_or_single {found : Value} (quantified : ∀ items, found ≠ .multi .matchAll items) :
    (∃ items, found = .multi .matchAny items) ∨
      (∀ mode items, found ≠ .multi mode items) ∧ found.sought = [found] := by
  cases found with
  | multi mode items =>
      cases mode with
      | matchAll => exact absurd rfl (quantified items)
      | matchAny => exact .inl ⟨items, rfl⟩
  | _ => exact .inr ⟨nofun, rfl⟩

theorem compareOperands_equal_iff {found listed : Value}
    (quantified : ∀ items, found ≠ .multi .matchAll items)
    (single : ∀ mode items, listed ≠ .multi mode items)
    (decided : Succeeds (found.compareOperands .equal listed)) :
    found.compareOperands .equal listed = .ok true ↔
      ∃ item ∈ found.sought, item.promotedEqual listed = true := by
  obtain ⟨items, rfl⟩ | ⟨alone, itself⟩ := some_or_single quantified
  · obtain ⟨outcome, decided⟩ := decided
    obtain ⟨each, -, quantifies⟩ := (compareOperands_multi_left_eq_ok_iff single).mp decided
    rw [decided, Except.ok.injEq, quantifies]
    exact exists_congr fun item =>
      and_congr_right fun member => equal_eq_ok_true_iff (each item member)
  · rw [compareOperands_single alone single] at decided ⊢
    simp only [itself, List.mem_singleton, exists_eq_left]
    exact equal_eq_ok_true_iff decided

/-- A membership test asks for a value among those listed; an operand that is no multi value must
have the type of everything listed. -/
theorem memberOf_eq_ok {found : Value} {listed : List Value} {decision : Bool}
    (quantified : ∀ items, found ≠ .multi .matchAll items)
    (decided : memberOf [found] listed = .ok decision) :
    (decision = true ↔ ∃ value ∈ listed, ∃ item ∈ found.sought, item = value) ∧
      ((∃ mode items, found = .multi mode items) ∨ ∀ value ∈ listed, value.kind = found.kind) := by
  obtain ⟨items, rfl⟩ | ⟨alone, itself⟩ := some_or_single quantified
  · obtain rfl := Except.ok.inj decided
    refine ⟨?_, .inl ⟨.matchAny, items, rfl⟩⟩
    simp only [MatchMode.combine, sought, List.any_map, List.any_eq_true, Function.comp_apply, id,
      List.contains_iff_mem, exists_eq_right]
    exact exists_congr fun _ => and_comm
  · obtain ⟨typed, contained⟩ := (memberOf_plain_eq_ok_iff alone).mp decided
    refine ⟨?_, .inr fun value member => typed value (List.mem_append_right _ member)⟩
    simp only [contained, itself, List.mem_singleton, exists_eq_left, forall_eq, exists_eq_right']

/-- Nothing that an equality was decided for on the right is a multi value, provided that it has the
type of a single operand. -/
theorem single_of_compared {found listed : Value} {operator : ComparisonOp}
    (typed : (∃ mode items, found = .multi mode items) ∨ listed.kind = found.kind)
    (decided : Succeeds (found.compareOperands operator listed)) (mode : MatchMode)
    (items : List Value) : listed ≠ .multi mode items := by
  intro several
  subst several
  have both : ∃ mode items, found = .multi mode items := by
    refine typed.elim id fun same => ?_
    cases found with
    | multi other founds => exact ⟨other, founds, rfl⟩
    | _ => exact absurd same nofun
  obtain ⟨other, founds, rfl⟩ := both
  obtain ⟨outcome, decided⟩ := decided
  exact absurd decided nofun

theorem memberOf_iff_exists_equal {found : Value} {listed : List Value} {decision : Bool}
    (quantified : ∀ items, found ≠ .multi .matchAll items)
    (concordant : ∀ value ∈ listed, ∀ item ∈ found.sought, ¬ item.Discordant value)
    (compared : ∀ value ∈ listed, Succeeds (found.compareOperands .equal value))
    (tested : memberOf [found] listed = .ok decision) :
    decision = true ↔ ∃ value ∈ listed, found.compareOperands .equal value = .ok true := by
  obtain ⟨contained, typed⟩ := memberOf_eq_ok quantified tested
  rw [contained]
  refine exists_congr fun value => and_congr_right fun member => ?_
  have single : ∀ mode items, value ≠ .multi mode items :=
    single_of_compared (typed.imp_right fun same => same value member) (compared value member)
  rw [compareOperands_equal_iff quantified single (compared value member)]
  refine exists_congr fun item => and_congr_right fun itemMember => ?_
  rw [promotedEqual_eq_beq_iff.mpr (concordant value member item itemMember), beq_iff_eq]

end Value

namespace Expr

variable {config : Config} {row : Node}

/-- Whether a value that is looked for and a listed one are the same for one of the equalities
only. -/
def Discordant (config : Config) (row : Node) (operand value : Expr) : Prop :=
  ∃ found listed, operand.value config row = .ok found ∧ value.value config row = .ok listed ∧
    ∃ item ∈ found.sought, item.Discordant listed

theorem exists_holds_comparison_iff {operand : Expr} {values : List Expr} {found : Value}
    {listed : List Value} {operator : ComparisonOp} {decision : Bool}
    (resolved : operand.value config row = .ok found)
    (evaluated : values.mapM (Expr.value config row) = .ok listed) :
    (∃ value ∈ values, (comparison operand operator value).holds config row = .ok decision) ↔
      ∃ value ∈ listed, found.compareOperands operator value = .ok decision := by
  constructor
  · intro holds
    obtain ⟨item, itemMember, holds⟩ := holds
    obtain ⟨value, valued⟩ := succeeds_mapM_iff.mp ⟨listed, evaluated⟩ item itemMember
    rw [holds_comparison operator resolved valued] at holds
    exact ⟨value, (mem_iff_of_mapM evaluated).mpr ⟨item, itemMember, valued⟩, holds⟩
  · intro compares
    obtain ⟨value, member, compares⟩ := compares
    obtain ⟨item, itemMember, valued⟩ := (mem_iff_of_mapM evaluated).mp member
    exact ⟨item, itemMember, (holds_comparison operator resolved valued).trans compares⟩

/-- **Membership as a disjunction of equalities.** Take an operand that is no `matchAll`, and a list
none of whose values is discordant with one that the operand stands for. Where the membership test
and the comparisons with the listed values are decided, the test holds exactly if one of the
comparisons does. -/
theorem holds_member_iff_exists_equal {operand : Expr} {values : List Expr} {decision : Bool}
    (quantified : ∀ items, operand.value config row ≠ .ok (.multi .matchAll items))
    (concordant : ∀ value ∈ values, ¬ Discordant config row operand value)
    (compared : ∀ value ∈ values, Succeeds ((comparison operand .equal value).holds config row))
    (tested : (member operand (list values) false).holds config row = .ok decision) :
    decision = true ↔
      ∃ value ∈ values, (comparison operand .equal value).holds config row = .ok true := by
  obtain ⟨⟨lefts, leftResolved⟩, ⟨listed, rightResolved⟩⟩ := candidates_of_holds_member tested
  have evaluated : values.mapM (Expr.value config row) = .ok listed :=
    mapM_value_of_listValues rightResolved
  cases values with
  | nil =>
      obtain rfl := Except.ok.inj evaluated
      rw [holds_member_of_empty leftResolved rightResolved (.inr rfl)] at tested
      rw [← Except.ok.inj tested]
      exact iff_of_false nofun nofun
  | cons first rest =>
      -- The operand has a value because the comparison with the first item is decided.
      obtain ⟨outcome, decided⟩ := compared first List.mem_cons_self
      obtain ⟨found, resolved, decided⟩ := bind_eq_ok_iff.mp decided
      obtain ⟨firstListed, firstValued, -⟩ := bind_eq_ok_iff.mp decided
      have present : listed ≠ [] := List.ne_nil_of_mem
        ((mem_iff_of_mapM evaluated).mpr ⟨first, List.mem_cons_self, firstValued⟩)
      rw [holds_member (leftCandidates_of_value resolved) rightResolved (List.cons_ne_nil _ _)
        present, map_eq_ok_iff] at tested
      obtain ⟨contained, tested, rfl⟩ := tested
      rw [Bool.bne_false, exists_holds_comparison_iff resolved evaluated]
      refine Value.memberOf_iff_exists_equal ?_ ?_ ?_ tested
      · intro items all
        exact quantified items (all ▸ resolved)
      · intro value member item itemMember discordant
        obtain ⟨other, otherMember, valued⟩ := (mem_iff_of_mapM evaluated).mp member
        exact concordant other otherMember
          ⟨found, value, resolved, valued, item, itemMember, discordant⟩
      · intro value member
        obtain ⟨other, otherMember, valued⟩ := (mem_iff_of_mapM evaluated).mp member
        exact holds_comparison .equal resolved valued ▸ compared other otherMember

/-- Some item of an array is among two listed numbers, and equal to one of them. -/
theorem matching_among_two :
    let row := Node.object [("a", .array [.number (.ofInt64 1), .number (.ofInt64 3)])]
    let listed : List Expr := [literal (.integer 2), literal (.integer 3)]
    (member (matching .matchAny "a") (list listed) false).holds {} row = .ok true ∧
    ∃ value ∈ listed,
      (comparison (matching .matchAny "a") .equal value).holds {} row = .ok true := by
  intro row listed
  have resolved : (matching .matchAny "a").value {} row =
      .ok (.multi .matchAny [.integer 1, .integer 3]) := rfl
  have quantified : ∀ items, (matching .matchAny "a").value {} row ≠ .ok (.multi .matchAll items) :=
    nofun
  have concordant : ∀ value ∈ listed, ¬ Discordant {} row (matching .matchAny "a") value := by
    rintro value member ⟨found, number, foundIs, numberIs, item, itemMember, discordant⟩
    obtain rfl := Except.ok.inj (resolved.symm.trans foundIs)
    simp only [listed, Value.sought, List.mem_cons, List.not_mem_nil, or_false] at member itemMember
    rcases member with rfl | rfl <;> obtain rfl := Except.ok.inj numberIs <;>
      rcases itemMember with rfl | rfl <;> exact discordant
  have compared : ∀ value ∈ listed,
      Succeeds ((comparison (matching .matchAny "a") .equal value).holds {} row) :=
    List.forall_mem_cons.mpr ⟨⟨false, rfl⟩, List.forall_mem_singleton.mpr ⟨true, rfl⟩⟩
  have tested : (member (matching .matchAny "a") (list listed) false).holds {} row = .ok true := rfl
  exact ⟨tested, (holds_member_iff_exists_equal quantified concordant compared tested).mp rfl⟩

/-- Each kind of discordant pair is told apart by one of the tests only. -/
theorem member_tells_numbers_apart :
    let row := Node.object [("a", .array [.number (.ofInt64 1)])]
    let among operand value := (member operand (list [value]) false).holds {} row
    let equals operand value := (comparison operand .equal value).holds {} row
    let float number := literal (.float number)
    let nan := arithmetic (float 0) .divide (float 0)
    (among (matching .matchAny "a") (float 1) = .ok false ∧
      equals (matching .matchAny "a") (float 1) = .ok true) ∧
    (among (float (-0)) (float 0) = .ok false ∧ equals (float (-0)) (float 0) = .ok true) ∧
    (among nan nan = .ok true ∧ equals nan nan = .ok false) :=
  ⟨⟨rfl, rfl⟩, ⟨rfl, rfl⟩, ⟨rfl, rfl⟩⟩

end Expr

end RowQuery
