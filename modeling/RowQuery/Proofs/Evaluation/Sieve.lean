import RowQuery.Proofs.Condition.Connectives
import RowQuery.Proofs.Evaluation.Rows
import RowQuery.Proofs.Path.Leaves

/-! # Filtered tables

Filtering a table picks from its leaves, which stand in document order, those that the condition
accepts, unless the condition fails on one of them. The connectives of conditions act on filtered
tables as they do on decisions, and joined arrays are filtered one after the other
(`RowQuery.Query.filterRows_sieves`).
-/

namespace RowQuery.Query

open Attempt

/-- The query with another condition. -/
def filtered (query : Query) (condition : Expr) : Query :=
  { query with filter := some condition }

/-- What two conditions, their negation and their connectives keep of a table. -/
structure Combines (query : Query) (config : Config) (table : Node) (first second : Expr) :
    Prop where
  /-- Every row is kept by one condition or by its negation, and never by both. -/
  complement : ∃ kept dropped, (query.filtered first).filterRows config table = .ok kept ∧
    (query.filtered (.not first)).filterRows config table = .ok dropped ∧
    (∀ row ∈ table.leaves, row ∈ kept ↔ row ∉ dropped) ∧ (kept ++ dropped).Perm table.leaves
  /-- A conjunction keeps those of the rows kept by its first part that its second part accepts. -/
  conjunction : ∃ kept, (query.filtered first).filterRows config table = .ok kept ∧
    (query.filtered (.logical first .and second)).filterRows config table =
      .ok (kept.filter ((query.filtered second).accepts config))
  /-- A disjunction keeps the rows that one of its parts accepts. -/
  disjunction : (query.filtered (.logical first .or second)).filterRows config table =
    .ok (table.leaves.filter fun row =>
      (query.filtered first).accepts config row || (query.filtered second).accepts config row)

variable {query : Query} {config : Config} {table row : Node} {first second : Expr}

/-! ### Decisions -/

theorem accepts_of_keeps {decision : Bool} (keeps : query.keeps config row = .ok decision) :
    query.accepts config row = decision := by
  rw [accepts, keeps]

/-- Rows that are decided as a test says are sieved by the test. -/
theorem filterRows_of_keeps {test : Node → Bool}
    (keeps : ∀ row ∈ table.leaves, query.keeps config row = .ok (test row)) :
    query.filterRows config table = .ok (table.leaves.filter test) := by
  rw [filterRows_eq_ok fun row member => ⟨_, keeps row member⟩, kept]
  congr 1
  exact List.filter_congr fun row member => accepts_of_keeps (keeps row member)

theorem holds_eq_accepts {condition : Expr} (query : Query)
    (decided : Succeeds (condition.holds config row)) :
    condition.holds config row = .ok ((query.filtered condition).accepts config row) := by
  obtain ⟨decision, holds⟩ := decided
  have keeps : (query.filtered condition).keeps config row = .ok decision := holds
  rw [holds, accepts_of_keeps keeps]

theorem keeps_not (decided : Succeeds (first.holds config row)) :
    (query.filtered (.not first)).keeps config row =
      .ok (!(query.filtered first).accepts config row) := by
  refine Expr.holds_not_eq_ok_iff.mpr ?_
  rw [Bool.not_not, holds_eq_accepts query decided]

theorem keeps_logical (operator : LogicalOp) (firstDecided : Succeeds (first.holds config row))
    (secondDecided : Succeeds (second.holds config row)) :
    (query.filtered (.logical first operator second)).keeps config row =
      .ok (operator.apply ((query.filtered first).accepts config row)
        ((query.filtered second).accepts config row)) :=
  Expr.holds_logical_eq_ok_iff.mpr ⟨_, _, holds_eq_accepts query firstDecided,
    holds_eq_accepts query secondDecided, rfl⟩

/-! ### Tables -/

theorem combines_of_decided (firstDecided : ∀ row ∈ table.leaves, Succeeds (first.holds config row))
    (secondDecided : ∀ row ∈ table.leaves, Succeeds (second.holds config row)) :
    query.Combines config table first second := by
  have decided : ∀ row ∈ table.leaves, Succeeds ((query.filtered first).keeps config row) :=
    firstDecided
  have kept := filterRows_eq_ok decided
  have inverted : ∀ row ∈ table.leaves, (query.filtered (.not first)).keeps config row =
      .ok (!(query.filtered first).accepts config row) :=
    fun row member => keeps_not (firstDecided row member)
  constructor
  · have dropped := filterRows_of_keeps inverted
    refine ⟨_, _, kept, dropped, ?_, List.filter_append_perm _ _⟩
    intro row member
    simp only [Query.kept, List.mem_filter, member, true_and, Bool.not_eq_true',
      Bool.not_eq_false]
  · refine ⟨_, kept, ?_⟩
    rw [Query.kept, List.filter_filter]
    apply filterRows_of_keeps
    intro row member
    rw [keeps_logical .and (firstDecided row member) (secondDecided row member), LogicalOp.apply,
      Bool.and_comm]
  · apply filterRows_of_keeps
    intro row member
    exact keeps_logical .or (firstDecided row member) (secondDecided row member)

theorem keepRows_append (rows others : List Node) :
    query.keepRows config (rows ++ others) = do
      let kept ← query.keepRows config rows
      let more ← query.keepRows config others
      return kept ++ more := by
  induction rows with
  | nil => exact (bind_pure _).symm
  | cons row rest ih =>
      rw [List.cons_append, keepRows, keepRows, ih]
      cases query.keeps config row with
      | error failure => rfl
      | ok decision =>
          cases query.keepRows config rest with
          | error failure => rfl
          | ok kept =>
              cases query.keepRows config others with
              | error failure => rfl
              | ok more =>
                  cases decision with
                  | true => rfl
                  | false => rfl

theorem filterRows_array_append (items others : List Node) :
    query.filterRows config (.array (items ++ others)) = do
      let kept ← query.filterRows config (.array items)
      let more ← query.filterRows config (.array others)
      return kept ++ more := by
  simp only [filterRows, Node.leaves_array, List.flatMap_append, keepRows_append]

/-- **Filtering is an order-preserving sieve.** The leaves of a table are the nodes that are met
when nested arrays are flattened in document order. Filtering fails exactly if the condition fails
on one of them, and then as on the first one; otherwise it gives those that the condition accepts,
all of them without a condition. So conditions that are decided for every row combine as their
decisions do, and the rows of joined arrays follow one another. -/
theorem filterRows_sieves (query : Query) (config : Config) (table : Node) :
    (table.Flattens table.addressed ∧ table.addressed.map Prod.snd = table.leaves) ∧
    (Fails (query.filterRows config table) ↔
      ∃ row ∈ table.leaves, Fails (query.keeps config row)) ∧
    (∀ failure, query.filterRows config table = .error failure ↔
      FirstFailure (query.keeps config) table.leaves failure) ∧
    ((∀ row ∈ table.leaves, Succeeds (query.keeps config row)) →
      query.filterRows config table = .ok (table.leaves.filter (query.accepts config))) ∧
    (query.filter = none → query.filterRows config table = .ok table.leaves) ∧
    (∀ first second : Expr, (∀ row ∈ table.leaves, Succeeds (first.holds config row)) →
      (∀ row ∈ table.leaves, Succeeds (second.holds config row)) →
      query.Combines config table first second) ∧
    ∀ items others, query.filterRows config (.array (items ++ others)) = do
      let kept ← query.filterRows config (.array items)
      let more ← query.filterRows config (.array others)
      return kept ++ more := by
  refine ⟨⟨table.flattens_addressed, table.map_snd_addressed⟩, ?_,
    fun failure => filterRows_eq_error_iff, filterRows_eq_ok,
    fun unfiltered => filterRows_unfiltered unfiltered table,
    fun first second => combines_of_decided, filterRows_array_append⟩
  rw [← exists_firstFailure_iff]
  exact exists_congr fun failure => filterRows_eq_error_iff

/-- Rows of nested arrays keep their order. -/
example :
    let row n := Node.object [("a", .number (.ofInt64 n))]
    let small := Expr.comparison (.column "a") .less (.literal (.integer 3))
    (Query.mk "." (some small) [] false).filterRows {}
      (.array [.array [row 1, .array [row 3]], row 2]) = .ok [row 1, row 2] := rfl

end RowQuery.Query
