import RowQuery.Proofs.Condition.Membership
import RowQuery.Proofs.Condition.Operand

/-! # Membership tests with an empty side

A side of a membership test that gives no candidates discards the row, negated or not, and only an
empty side does so: with candidates on both sides, negation inverts the decision. What counts as
empty differs between the sides. On the right, an array or a multi value without items gives no
candidates. On the left, only the empty list gives none: a multi value is a single candidate there,
however few items it has, and its match mode decides
(`RowQuery.Expr.holds_member_emptySide`, `RowQuery.Expr.matching_nothing_is_kept`).
-/

namespace RowQuery

open Attempt

variable {config : Config} {row : Node}

theorem listValues_eq_ok_nil_iff {items : List Expr} :
    listValues config row items = .ok [] ↔ items = [] := by
  cases items with
  | nil => exact iff_of_true rfl rfl
  | cons item rest =>
      refine iff_of_false ?_ (List.cons_ne_nil item rest)
      intro evaluated
      obtain ⟨first, -, evaluated⟩ := bind_eq_ok_iff.mp evaluated
      obtain ⟨others, -, gathered⟩ := bind_eq_ok_iff.mp evaluated
      exact List.cons_ne_nil first others (pure_eq_ok_iff.mp gathered)

theorem Value.candidates_eq_nil_iff {value : Value} :
    value.candidates = [] ↔ value = .list [] ∨ ∃ mode, value = .multi mode [] := by
  cases value <;> simp [candidates]

theorem leftCandidates_eq_ok_nil_iff {side : Expr} :
    leftCandidates config row side = .ok [] ↔ side = .list [] := by
  obtain ⟨items, rfl⟩ | single := side.list_or_single
  · rw [leftCandidates, listValues_eq_ok_nil_iff, Expr.list.injEq]
  · rw [leftCandidates_of_ne_list single, map_eq_ok_iff]
    refine iff_of_false ?_ (single [])
    intro resolved
    obtain ⟨value, -, empty⟩ := resolved
    exact List.cons_ne_nil value [] empty

theorem rightCandidates_eq_ok_nil_iff {side : Expr} :
    rightCandidates config row side = .ok [] ↔
      side = .list [] ∨ side.value config row = .ok (.list []) ∨
        ∃ mode, side.value config row = .ok (.multi mode []) := by
  obtain ⟨items, rfl⟩ | single := side.list_or_single
  · simp only [rightCandidates, listValues_eq_ok_nil_iff, Expr.list.injEq, Expr.value, reduceCtorEq,
      exists_false, or_false]
  · simp only [rightCandidates_of_ne_list single, map_eq_ok_iff, Value.candidates_eq_nil_iff,
      single [], false_or]
    constructor
    · rintro ⟨value, resolved, rfl | ⟨mode, rfl⟩⟩
      · exact .inl resolved
      · exact .inr ⟨mode, resolved⟩
    · rintro (resolved | ⟨mode, resolved⟩)
      · exact ⟨_, resolved, .inl rfl⟩
      · exact ⟨_, resolved, .inr ⟨mode, rfl⟩⟩

namespace Expr

variable {left right : Expr} {lefts rights : List Value}

/-- With candidates on the right, negation inverts every decision about a side that is not the empty
list. -/
theorem holds_member_negated_iff {negated decision : Bool}
    (rightResolved : rightCandidates config row right = .ok rights)
    (leftSome : left ≠ .list []) (rightSome : rights ≠ []) :
    (member left right negated).holds config row = .ok decision ↔
      (member left right false).holds config row = .ok (decision != negated) := by
  cases resolved : leftCandidates config row left with
  | error failure =>
      have undecided : ∀ inverted outcome,
          (member left right inverted).holds config row ≠ .ok outcome := by
        intro inverted outcome decided
        have succeeds := (candidates_of_holds_member decided).1
        rw [resolved] at succeeds
        exact succeeds.not_error failure rfl
      exact iff_of_false (undecided _ _) (undecided _ _)
  | ok values =>
      have valuesSome : values ≠ [] := by
        rintro rfl
        exact leftSome (leftCandidates_eq_ok_nil_iff.mp resolved)
      rw [holds_member resolved rightResolved valuesSome rightSome,
        holds_member resolved rightResolved valuesSome rightSome, map_bne_eq_ok_iff,
        map_bne_eq_ok_iff, Bool.bne_false]

/-- The row is discarded under both negations exactly if a side gives no candidates. -/
theorem holds_member_discards_iff (leftResolved : leftCandidates config row left = .ok lefts)
    (rightResolved : rightCandidates config row right = .ok rights) :
    (∀ negated, (member left right negated).holds config row = .ok false) ↔
      lefts = [] ∨ rights = [] := by
  constructor
  · intro discarded
    by_contra candidates
    rw [not_or] at candidates
    obtain ⟨leftSome, rightSome⟩ := candidates
    have present : left ≠ .list [] := by
      rintro rfl
      exact leftSome (Except.ok.inj leftResolved).symm
    -- With candidates on both sides the two tests invert each other, so not both can be false.
    have inverted := (holds_member_negated_iff rightResolved present rightSome).mp (discarded true)
    rw [discarded false] at inverted
    exact absurd inverted nofun
  · intro empty negated
    exact holds_member_of_empty leftResolved rightResolved empty

/-- **Membership tests with an empty side.** Let both sides resolve. The row is discarded whether or
not the test is negated exactly if the left side is the empty list, or the right side is the empty
list, an array without items or a multi value without items. A multi value without items on the left
is no empty side: unless the right side is one, `matchAll` holds of it and `matchAny` does not, and
negation inverts that. -/
theorem holds_member_emptySide
    (leftResolved : Succeeds (leftCandidates config row left))
    (rightResolved : Succeeds (rightCandidates config row right)) :
    ((∀ negated, (member left right negated).holds config row = .ok false) ↔
      left = .list [] ∨ right = .list [] ∨ right.value config row = .ok (.list []) ∨
        ∃ mode, right.value config row = .ok (.multi mode [])) ∧
    ∀ mode, left.value config row = .ok (.multi mode []) →
      rightCandidates config row right ≠ .ok [] →
      ∀ negated, (member left right negated).holds config row =
        .ok (decide (mode = .matchAll) != negated) := by
  obtain ⟨lefts, leftFound⟩ := leftResolved
  obtain ⟨rights, rightFound⟩ := rightResolved
  constructor
  · rw [holds_member_discards_iff leftFound rightFound, ← rightCandidates_eq_ok_nil_iff,
      ← @leftCandidates_eq_ok_nil_iff config row left, leftFound, rightFound, Except.ok.injEq,
      Except.ok.injEq]
  · intro mode nothing present negated
    have gathered : leftCandidates config row left = .ok [.multi mode []] :=
      leftCandidates_of_value nothing
    have rightSome : rights ≠ [] := by
      intro empty
      rw [rightFound, empty] at present
      exact present rfl
    rw [holds_member gathered rightFound (List.cons_ne_nil _ _) rightSome]
    cases mode <;> rfl

/-- A test against an array without items discards the row although it is negated; all of no items
are among those listed. -/
theorem nothing_among_all :
    let row := Node.object [("a", .array [])]
    (member (literal (.integer 1)) (column "a") true).holds {} row = .ok false ∧
    (member (matching .matchAll "a") (list [literal (.integer 1)]) false).holds {} row =
      .ok true := by
  intro row
  have one : Succeeds (leftCandidates {} row (literal (.integer 1))) := ⟨_, rfl⟩
  have inside : Succeeds (rightCandidates {} row (column "a")) := ⟨_, rfl⟩
  have nothing : Succeeds (leftCandidates {} row (matching .matchAll "a")) := ⟨_, rfl⟩
  have listed : Succeeds (rightCandidates {} row (list [literal (.integer 1)])) := ⟨_, rfl⟩
  constructor
  · exact (holds_member_emptySide one inside).1.mpr (.inr (.inr (.inl rfl))) true
  · exact (holds_member_emptySide nothing listed).2 .matchAll rfl nofun false

/-- A negated test keeps the row although the path of its left side reaches nothing. -/
theorem matching_nothing_is_kept :
    let row := Node.object [("a", .array [])]
    (Path.mk "a").collect row = .ok [] ∧
    (matching .matchAny "a").value {} row = .ok (.multi .matchAny []) ∧
    (member (matching .matchAny "a") (list [literal (.integer 1)]) true).holds {} row = .ok true :=
  ⟨rfl, rfl, rfl⟩

end Expr

end RowQuery
