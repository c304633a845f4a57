import RowQuery.Evaluation
import RowQuery.Proofs.Attempts

/-! # Kept rows

The rows of a table are its leaves. If the condition of a query fails on one of them, so does the
filter, as on the first such row (`RowQuery.Query.filterRows_eq_error_iff`); otherwise it keeps the
accepted rows in order (`RowQuery.Query.filterRows_eq_ok`).
-/

namespace RowQuery.Query

open Attempt

variable {query : Query} {config : Config}

/-- Whether the condition of a query is decided for a row, and in its favour. -/
def accepts (query : Query) (config : Config) (row : Node) : Bool :=
  match query.keeps config row with
  | .ok kept => kept
  | .error _ => false

/-- The accepted rows of a table, in document order. -/
def kept (query : Query) (config : Config) (table : Node) : List Node :=
  table.leaves.filter (query.accepts config)

/-- The kept rows depend on nothing but which rows a query keeps. -/
theorem filterRows_congr {other : Query} {alternative : Config}
    (same : query.keeps config = other.keeps alternative) (table : Node) :
    query.filterRows config table = other.filterRows alternative table := by
  unfold filterRows
  induction table.leaves with
  | nil => rfl
  | cons row rest ih => rw [keepRows, keepRows, same, ih]

theorem keepRows_eq_error_iff {rows : List Node} {failure : QueryError} :
    query.keepRows config rows = .error failure ↔
      FirstFailure (query.keeps config) rows failure := by
  induction rows with
  | nil => simp only [keepRows, reduceCtorEq, firstFailure_nil]
  | cons row rest ih =>
      rw [firstFailure_cons_iff, ← ih, keepRows]
      simp only [bind_eq_error_iff, pure_ne_error, and_false, exists_false, or_false, Succeeds,
        exists_and_right]

theorem keepRows_eq_ok {rows : List Node}
    (decided : ∀ row ∈ rows, Succeeds (query.keeps config row)) :
    query.keepRows config rows = .ok (rows.filter (query.accepts config)) := by
  induction rows with
  | nil => rfl
  | cons row rest ih =>
      obtain ⟨⟨decision, keeps⟩, others⟩ := List.forall_mem_cons.mp decided
      have accepted : query.accepts config row = decision := by
        rw [accepts, keeps]
      rw [keepRows, keeps, ih others, List.filter_cons, accepted]
      rfl

theorem filterRows_eq_error_iff {table : Node} {failure : QueryError} :
    query.filterRows config table = .error failure ↔
      FirstFailure (query.keeps config) table.leaves failure :=
  keepRows_eq_error_iff

theorem filterRows_eq_ok {table : Node}
    (decided : ∀ row ∈ table.leaves, Succeeds (query.keeps config row)) :
    query.filterRows config table = .ok (query.kept config table) :=
  keepRows_eq_ok decided

theorem filterRows_eq_ok_iff {table : Node} {rows : List Node} :
    query.filterRows config table = .ok rows ↔
      (∀ row ∈ table.leaves, Succeeds (query.keeps config row)) ∧
        rows = query.kept config table := by
  constructor
  · intro filtered
    have decided : ∀ row ∈ table.leaves, Succeeds (query.keeps config row) := by
      intro row member
      by_contra undecided
      obtain ⟨failure, first⟩ :=
        exists_firstFailure_iff.mpr ⟨row, member, not_succeeds_iff.mp undecided⟩
      cases filtered.symm.trans (filterRows_eq_error_iff.mpr first)
    rw [filterRows_eq_ok decided, Except.ok.injEq] at filtered
    exact ⟨decided, filtered.symm⟩
  · rintro ⟨decided, rfl⟩
    exact filterRows_eq_ok decided

theorem mem_of_filterRows {table row : Node} {rows : List Node}
    (filtered : query.filterRows config table = .ok rows) (kept : row ∈ rows) :
    row ∈ table.leaves := by
  obtain ⟨-, rfl⟩ := filterRows_eq_ok_iff.mp filtered
  exact (List.mem_filter.mp kept).1

/-- Without a condition every row is kept. -/
theorem filterRows_unfiltered (unfiltered : query.filter = none) (table : Node) :
    query.filterRows config table = .ok table.leaves := by
  have keeps (row : Node) : query.keeps config row = .ok true := by rw [keeps, unfiltered]
  rw [filterRows_eq_ok fun row _ => ⟨true, keeps row⟩, kept, List.filter_eq_self.mpr]
  intro row _
  rw [accepts, keeps]

end RowQuery.Query
