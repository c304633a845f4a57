import RowQuery.Proofs.Condition.Emptiness

/-! # Membership tests of several operands

A list on the left of a membership test asks whether all of its values are among those on the right.
Types are required in two places, of the items of a list while it is evaluated and of all values
against the first one on the left, but together that only says that each operand on its own has the
type of all candidates (`RowQuery.Expr.Suits`). The test of the list is therefore the conjunction of
the tests of its operands, and neither their order nor their number matters
(`RowQuery.Expr.holds_member_subset`). Multi values are excepted, since one alone is combined by its
mode while two of them are values like any others.
-/

namespace RowQuery

open Attempt

variable {config : Config} {row : Node}

/-! ### Values of reordered lists -/

/-- A list with the same items in any order and number has the same values. -/
theorem exists_listValues_of_mem_iff {items others : List Expr} {values : List Value}
    (evaluated : listValues config row items = .ok values)
    (same : ∀ item, item ∈ others ↔ item ∈ items) :
    ∃ found, listValues config row others = .ok found ∧
      ∀ value, value ∈ found ↔ value ∈ values := by
  obtain ⟨traversed, alike⟩ := listValues_eq_ok_iff.mp evaluated
  have each := succeeds_mapM_iff.mp ⟨values, traversed⟩
  obtain ⟨found, again⟩ :=
    succeeds_mapM_iff.mpr fun item member => each item ((same item).mp member)
  have members : ∀ value, value ∈ found ↔ value ∈ values := by
    intro value
    rw [mem_iff_of_mapM again, mem_iff_of_mapM traversed]
    simp only [same]
  refine ⟨found, listValues_eq_ok_iff.mpr ⟨again, ?_⟩, members⟩
  simp only [members]
  exact alike

namespace Expr

variable {left right : Expr} {lefts : List Expr} {candidates : List Value}

/-- Whether an operand has a value of the type of all candidates. -/
def Suits (config : Config) (row : Node) (candidates : List Value) (operand : Expr) : Prop :=
  ∃ value, operand.value config row = .ok value ∧
    ∀ candidate ∈ candidates, value.kind = candidate.kind

/-- Whether an operand has a value that is a candidate. -/
def IsAmong (config : Config) (row : Node) (candidates : List Value) (operand : Expr) : Prop :=
  ∃ value, operand.value config row = .ok value ∧ value ∈ candidates

/-- Where all operands suit the candidates, the types of a list of them agree as well. -/
theorem succeeds_listValues_of_suits (rightSome : candidates ≠ [])
    (suits : ∀ operand ∈ lefts, Suits config row candidates operand) :
    Succeeds (listValues config row lefts) := by
  obtain ⟨candidate, listed⟩ := List.exists_mem_of_ne_nil candidates rightSome
  obtain ⟨values, traversed⟩ : Succeeds (lefts.mapM (Expr.value config row)) := by
    refine succeeds_mapM_iff.mpr fun operand member => ?_
    obtain ⟨value, found, -⟩ := suits operand member
    exact ⟨value, found⟩
  have typed := (forall_mem_iff_of_mapM traversed).mpr suits
  refine ⟨values, listValues_eq_ok_iff.mpr ⟨traversed, ?_⟩⟩
  intro value member other among
  exact (typed value member candidate listed).trans (typed other among candidate listed).symm

/-! ### The decision -/

/-- Values on the left that are no multi values are decided if all of them have the type of all
candidates. -/
theorem holds_member_decides {values : List Value}
    (leftResolved : leftCandidates config row left = .ok values)
    (rightResolved : rightCandidates config row right = .ok candidates)
    (leftSome : values ≠ []) (rightSome : candidates ≠ [])
    (plain : ∀ value ∈ values, ∀ mode items, value ≠ .multi mode items) :
    Decides ((member left right false).holds config row)
      (∀ value ∈ values, ∀ candidate ∈ candidates, value.kind = candidate.kind)
      (∀ value ∈ values, value ∈ candidates) := by
  intro decision
  obtain ⟨first, rest, rfl⟩ := List.exists_cons_of_ne_nil leftSome
  obtain ⟨candidate, listed⟩ := List.exists_mem_of_ne_nil candidates rightSome
  rw [holds_member leftResolved rightResolved leftSome rightSome, map_eq_ok_iff]
  simp only [Bool.bne_false, exists_eq_right,
    Value.memberOf_plain_eq_ok_iff (plain first List.mem_cons_self)]
  refine and_congr_left fun _ => ?_
  constructor
  · intro typed value member other among
    exact (typed value (List.mem_append_left _ member)).trans
      (typed other (List.mem_append_right _ among)).symm
  · intro typed value member
    rcases List.mem_append.mp member with onLeft | onRight
    · exact (typed value onLeft candidate listed).trans
        (typed first List.mem_cons_self candidate listed).symm
    · exact (typed first List.mem_cons_self value onRight).symm

theorem holds_member_list_decides
    (rightResolved : rightCandidates config row right = .ok candidates)
    (leftSome : lefts ≠ []) (rightSome : candidates ≠ [])
    (plain : ∀ operand ∈ lefts, ∀ mode items, operand.value config row ≠ .ok (.multi mode items)) :
    Decides ((member (list lefts) right false).holds config row)
      (∀ operand ∈ lefts, Suits config row candidates operand)
      (∀ operand ∈ lefts, IsAmong config row candidates operand) := by
  by_cases evaluated : Succeeds (listValues config row lefts)
  · obtain ⟨values, evaluated⟩ := evaluated
    have traversed := mapM_value_of_listValues evaluated
    have valuesSome : values ≠ [] := by
      rintro rfl
      exact leftSome (listValues_eq_ok_nil_iff.mp evaluated)
    have plainValues : ∀ value ∈ values, ∀ mode items, value ≠ .multi mode items := by
      rintro value member mode items rfl
      obtain ⟨operand, among, found⟩ := (mem_iff_of_mapM traversed).mp member
      exact plain operand among mode items found
    have leftResolved : leftCandidates config row (list lefts) = .ok values := evaluated
    have decides := holds_member_decides leftResolved rightResolved valuesSome rightSome plainValues
    rw [forall_mem_iff_of_mapM traversed, forall_mem_iff_of_mapM traversed] at decides
    exact decides
  · intro decision
    refine iff_of_false ?_ ?_
    · intro decided
      exact evaluated (candidates_of_holds_member decided).1
    · intro decided
      exact evaluated (succeeds_listValues_of_suits rightSome decided.1)

theorem holds_member_operand_decides
    (rightResolved : rightCandidates config row right = .ok candidates)
    (rightSome : candidates ≠ []) (single : ∀ items, left ≠ .list items)
    (plain : ∀ mode items, left.value config row ≠ .ok (.multi mode items)) :
    Decides ((member left right false).holds config row)
      (Suits config row candidates left) (IsAmong config row candidates left) := by
  cases evaluated : left.value config row with
  | error failure =>
      intro decision
      refine iff_of_false ?_ ?_
      · intro decided
        have resolved := (candidates_of_holds_member decided).1
        rw [leftCandidates_of_ne_list single, succeeds_map_iff, evaluated] at resolved
        exact resolved.not_error failure rfl
      · intro decided
        obtain ⟨⟨value, found, -⟩, -⟩ := decided
        exact absurd (evaluated.symm.trans found) nofun
  | ok value =>
      have plainValues : ∀ found ∈ [value], ∀ mode items, found ≠ .multi mode items := by
        rintro found member mode items rfl
        rw [← List.mem_singleton.mp member] at evaluated
        exact plain mode items evaluated
      have decides := holds_member_decides (leftCandidates_of_value evaluated) rightResolved
        (List.cons_ne_nil value []) rightSome plainValues
      simp only [List.mem_singleton, forall_eq] at decides
      simp only [Suits, IsAmong, evaluated, Except.ok.injEq, exists_eq_left']
      exact decides

/-! ### Order and number -/

/-- A test only depends on which operands are on its left and on which candidates are on its
right. -/
theorem holds_member_list_congr {others : List Expr} {again : Expr} {listed : List Value}
    {negated decision : Bool}
    (rightResolved : rightCandidates config row right = .ok candidates)
    (againResolved : rightCandidates config row again = .ok listed)
    (leftSome : lefts ≠ []) (rightSome : candidates ≠ [])
    (plain : ∀ operand ∈ lefts, ∀ mode items, operand.value config row ≠ .ok (.multi mode items))
    (sameLeft : ∀ operand, operand ∈ others ↔ operand ∈ lefts)
    (sameRight : ∀ value, value ∈ listed ↔ value ∈ candidates) :
    (member (list others) again negated).holds config row = .ok decision ↔
      (member (list lefts) right negated).holds config row = .ok decision := by
  have othersSome : others ≠ [] := by
    rintro rfl
    exact leftSome (List.eq_nil_iff_forall_not_mem.mpr fun operand member =>
      List.not_mem_nil ((sameLeft operand).mpr member))
  have listedSome : listed ≠ [] := by
    rintro rfl
    exact rightSome (List.eq_nil_iff_forall_not_mem.mpr fun value member =>
      List.not_mem_nil ((sameRight value).mpr member))
  have plainOthers : ∀ operand ∈ others, ∀ mode items,
      operand.value config row ≠ .ok (.multi mode items) :=
    fun operand member => plain operand ((sameLeft operand).mp member)
  rw [holds_member_negated_iff rightResolved (mt Expr.list.inj leftSome) rightSome,
    holds_member_negated_iff againResolved (mt Expr.list.inj othersSome) listedSome,
    holds_member_list_decides rightResolved leftSome rightSome plain,
    holds_member_list_decides againResolved othersSome listedSome plainOthers]
  simp only [Suits, IsAmong, sameLeft, sameRight]

/-! ### The subset test -/

/-- **Membership of several operands.** Let the right side give candidates, and let a list of one or
more operands stand on the left, none of which has a multi value. The test of the list gives a
decision if the test of every operand does, and then it is the conjunction of these. Negation
inverts it. Neither the order nor the number of the items matters, on the left or in a list on the
right. -/
theorem holds_member_subset
    (leftSome : lefts ≠ []) (operands : ∀ operand ∈ lefts, ∀ items, operand ≠ .list items)
    (plain : ∀ operand ∈ lefts, ∀ mode items, operand.value config row ≠ .ok (.multi mode items))
    (rightResolved : rightCandidates config row right = .ok candidates)
    (rightSome : candidates ≠ []) :
    (Succeeds ((member (list lefts) right false).holds config row) ↔
      ∀ operand ∈ lefts, Succeeds ((member operand right false).holds config row)) ∧
    (∀ decision, (member (list lefts) right false).holds config row = .ok decision →
      (decision = true ↔
        ∀ operand ∈ lefts, (member operand right false).holds config row = .ok true)) ∧
    (∀ decision, (member (list lefts) right true).holds config row = .ok decision ↔
      (member (list lefts) right false).holds config row = .ok !decision) ∧
    (∀ others, (∀ operand, operand ∈ others ↔ operand ∈ lefts) → ∀ negated decision,
      (member (list others) right negated).holds config row = .ok decision ↔
        (member (list lefts) right negated).holds config row = .ok decision) ∧
    ∀ items others, right = .list items → (∀ item, item ∈ others ↔ item ∈ items) →
      ∀ negated decision,
        (member (list lefts) (list others) negated).holds config row = .ok decision ↔
          (member (list lefts) right negated).holds config row = .ok decision := by
  have together := holds_member_list_decides rightResolved leftSome rightSome plain
  have each : ∀ operand ∈ lefts, Decides ((member operand right false).holds config row)
      (Suits config row candidates operand) (IsAmong config row candidates operand) :=
    fun operand member => holds_member_operand_decides rightResolved rightSome
      (operands operand member) (plain operand member)
  refine ⟨?succeeds, ?conjunction, ?negation, ?left, ?right⟩
  case succeeds =>
    rw [together.succeeds_iff]
    exact forall₂_congr fun operand member => (each operand member).succeeds_iff.symm
  case conjunction =>
    intro decision decided
    obtain ⟨suits, among⟩ := (together decision).mp decided
    rw [among]
    refine forall₂_congr fun operand member => ?_
    rw [(each operand member).eq_ok_true_iff, and_iff_right (suits operand member)]
  case negation =>
    intro decision
    rw [holds_member_negated_iff rightResolved (mt Expr.list.inj leftSome) rightSome, Bool.bne_true]
  case left =>
    intro others same negated decision
    exact holds_member_list_congr rightResolved rightResolved leftSome rightSome plain same
      fun _ => Iff.rfl
  case right =>
    rintro items others rfl same negated decision
    obtain ⟨listed, found, sameValues⟩ := exists_listValues_of_mem_iff rightResolved same
    exact holds_member_list_congr rightResolved found leftSome rightSome plain (fun _ => Iff.rfl)
      sameValues

/-- A literal and a column, tested in either order against a list that repeats a value. -/
theorem literal_and_column_among_listed :
    let row := Node.object [("a", .number (.integer 2 (by decide)))]
    let one := literal (.integer 1)
    let two := literal (.integer 2)
    (member (list [one, column "a"]) (list [one, two, one]) false).holds {} row = .ok true ∧
    (member (column "a") (list [one, two, one]) false).holds {} row = .ok true ∧
    (member (list [column "a", one, one]) (list [one, two, one]) true).holds {} row = .ok false ∧
    (member (list [one, column "a"]) (list [two, one]) true).holds {} row = .ok false := by
  intro row one two
  have operands : ∀ operand ∈ [one, column "a"], ∀ items, operand ≠ .list items := by
    simp only [List.forall_mem_cons, one]
    exact ⟨nofun, nofun, nofun⟩
  have plain : ∀ operand ∈ [one, column "a"], ∀ mode items,
      operand.value {} row ≠ .ok (.multi mode items) := by
    simp only [List.forall_mem_cons, one]
    exact ⟨nofun, nofun, nofun⟩
  have listed : rightCandidates {} row (list [one, two, one]) =
      .ok [.integer 1, .integer 2, .integer 1] := rfl
  obtain ⟨-, conjunction, negation, reordered, relisted⟩ :=
    holds_member_subset (List.cons_ne_nil _ _) operands plain listed (List.cons_ne_nil _ _)
  have kept : (member (list [one, column "a"]) (list [one, two, one]) false).holds {} row =
      .ok true := rfl
  have discarded := (negation false).mpr kept
  refine ⟨kept, ?_, ?_, ?_⟩
  · exact (conjunction true kept).mp rfl _ (List.mem_cons_of_mem _ List.mem_cons_self)
  · refine (reordered _ (fun operand => ?_) true false).mpr discarded
    simp only [List.mem_cons, List.not_mem_nil, or_false]
    tauto
  · refine (relisted _ _ rfl (fun item => ?_) true false).mpr discarded
    simp only [List.mem_cons, List.not_mem_nil, or_false]
    tauto

end Expr

end RowQuery
