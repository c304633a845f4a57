import RowQuery.Proofs.Evaluation.Rows
import Mathlib.Data.List.Basic
import Mathlib.Logic.Function.Basic

/-! # Duplicate elimination

Elimination keeps the rows that equal no earlier row (`RowQuery.Table.keepNew_eq`), whether the
rows seen so far are kept in a list or in a hash set (`RowQuery.Table.keepUnhashed_eq`). A query
with duplicate elimination is answered exactly if the query without it is, by the table of that
answer without its duplicates (`RowQuery.Query.run_distinct`).
-/

namespace RowQuery

open Attempt

namespace Table

variable {seen rows before : List TableRow}

/-- The rows that are structurally equal to no earlier row, in their order. -/
def firstOccurrences (rows : List TableRow) : List TableRow :=
  (rows.zipIdx.filter fun entry => !(rows.take entry.2).contains entry.1).map Prod.fst

/-- What a row hands to a hash function. -/
def feedRow (row : TableRow) : List Value.Write :=
  .count row.length :: Value.feedItems row

/-- The rows that a hash set of the earlier rows does not hold: each row is looked for among the
seen rows with the same hash only. -/
def keepUnhashed (hash : List Value.Write → Nat) (buckets : Nat → List TableRow) :
    List TableRow → List TableRow
  | [] => []
  | row :: rest =>
    let key := hash (feedRow row)
    if (buckets key).contains row then keepUnhashed hash buckets rest
    else row :: keepUnhashed hash (Function.update buckets key (row :: buckets key)) rest

/-- Whether a table is another one without its duplicates. -/
structure Deduplicates (table result : Table) : Prop where
  headers : result.headers = table.headers
  /-- Exactly the rows that equal no earlier row are kept, in their order. -/
  rows : result.rows = firstOccurrences table.rows
  /-- No two kept rows are equal. -/
  apart : result.rows.Pairwise fun row other => (row == other) = false
  /-- A row that equals an earlier one equals an earlier one that is kept. -/
  represented : ∀ (i : Nat) (row : TableRow), table.rows[i]? = some row →
    (table.rows.take i).contains row = true →
    ∃ j earlier, j < i ∧ table.rows[j]? = some earlier ∧ (earlier == row) = true ∧
      (table.rows.take j).contains earlier = false
  /-- Nothing is left for a second elimination. -/
  settled : result.distinct = result
  /-- The result does not depend on how rows are hashed. -/
  unhashed : ∀ hash, keepUnhashed hash (fun _ => []) table.rows = result.rows

/-! ### The kept rows -/

/-- The rows seen so far matter only as a set, so any list of the same rows serves. -/
theorem keepNew_eq (same : ∀ row, row ∈ seen ↔ row ∈ before) :
    keepNew seen rows =
      ((rows.zipIdx before.length).filter fun entry =>
        !((before ++ rows).take entry.2).contains entry.1).map Prod.fst := by
  induction rows generalizing seen before with
  | nil => rfl
  | cons row rest ih =>
      have earlier : (before ++ row :: rest).take before.length = before := List.take_left
      have moved : before ++ row :: rest = (before ++ [row]) ++ rest := by
        rw [List.append_assoc, List.singleton_append]
      have next : before.length + 1 = (before ++ [row]).length := by
        rw [List.length_append, List.length_singleton]
      rw [keepNew, List.zipIdx_cons, List.filter_cons, earlier]
      by_cases known : row ∈ before
      · have again : ∀ other, other ∈ seen ↔ other ∈ before ++ [row] := by
          intro other
          rw [same, List.mem_append, List.mem_singleton]
          exact ⟨.inl, fun member => member.elim id fun equal => equal ▸ known⟩
        rw [if_pos (List.contains_iff_mem.mpr ((same row).mpr known)),
          if_neg (by simpa only [Bool.not_eq_true', Bool.not_eq_false, List.contains_iff_mem]),
          ih again, moved, next]
      · have extended : ∀ other, other ∈ row :: seen ↔ other ∈ before ++ [row] := by
          intro other
          rw [List.mem_cons, same, List.mem_append, List.mem_singleton, or_comm]
        have absent : ¬ seen.contains row = true := by
          rwa [List.contains_iff_mem, same]
        rw [if_neg absent,
          if_pos (by simpa only [Bool.not_eq_true', Bool.eq_false_iff, ne_eq,
            List.contains_iff_mem]),
          ih extended, moved, next, List.map_cons]

theorem keepNew_nil_eq (rows : List TableRow) : keepNew [] rows = firstOccurrences rows := by
  have same : ∀ row : TableRow, row ∈ ([] : List TableRow) ↔ row ∈ ([] : List TableRow) :=
    fun _ => Iff.rfl
  exact keepNew_eq same

theorem not_mem_of_mem_keepNew {row : TableRow} (kept : row ∈ keepNew seen rows) : row ∉ seen := by
  induction rows generalizing seen with
  | nil => exact absurd kept List.not_mem_nil
  | cons first rest ih =>
      rw [keepNew] at kept
      split at kept
      · exact ih kept
      · next absent =>
          rw [List.contains_iff_mem] at absent
          rcases List.mem_cons.mp kept with rfl | later
          · exact absent
          · exact fun known => ih later (List.mem_cons_of_mem first known)

theorem nodup_keepNew (seen rows : List TableRow) : (keepNew seen rows).Nodup := by
  induction rows generalizing seen with
  | nil => exact List.nodup_nil
  | cons row rest ih =>
      rw [keepNew]
      split
      · exact ih seen
      · exact List.nodup_cons.mpr
          ⟨fun again => not_mem_of_mem_keepNew again List.mem_cons_self, ih (row :: seen)⟩

theorem keepNew_eq_self (apart : rows.Nodup) (fresh : ∀ row ∈ rows, row ∉ seen) :
    keepNew seen rows = rows := by
  induction rows generalizing seen with
  | nil => rfl
  | cons row rest ih =>
      obtain ⟨different, apart⟩ := List.nodup_cons.mp apart
      obtain ⟨unseen, fresh⟩ := List.forall_mem_cons.mp fresh
      rw [keepNew, if_neg (by rwa [List.contains_iff_mem]), ih apart]
      intro other member known
      rcases List.mem_cons.mp known with rfl | known
      · exact different member
      · exact fresh other member known

/-- A hash set of rows keeps what a list of the same rows keeps: equal rows have equal hashes. -/
theorem keepUnhashed_eq (hash : List Value.Write → Nat) {buckets : Nat → List TableRow}
    (holds : ∀ row, row ∈ buckets (hash (feedRow row)) ↔ row ∈ seen) :
    keepUnhashed hash buckets rows = keepNew seen rows := by
  induction rows generalizing seen buckets with
  | nil => rfl
  | cons row rest ih =>
      have found : (buckets (hash (feedRow row))).contains row = seen.contains row := by
        rw [Bool.eq_iff_iff, List.contains_iff_mem, List.contains_iff_mem, holds]
      rw [keepUnhashed, keepNew, found]
      split
      · exact ih holds
      · refine congrArg (row :: ·) (ih fun other => ?_)
        rw [List.mem_cons, ← holds other]
        by_cases collide : hash (feedRow other) = hash (feedRow row)
        · rw [collide, Function.update_self, List.mem_cons]
        · rw [Function.update_of_ne collide]
          have different : other ≠ row := fun same => collide (same ▸ rfl)
          exact (or_iff_right different).symm

theorem deduplicates_distinct (table : Table) : table.Deduplicates table.distinct where
  headers := rfl
  rows := keepNew_nil_eq table.rows
  apart := (nodup_keepNew [] table.rows).imp fun different => beq_eq_false_iff_ne.mpr different
  represented := by
    intro i row present repeated
    have member := List.mem_of_getElem? present
    have below := (List.mem_take_iff_idxOf_lt member).mp (List.contains_iff_mem.mp repeated)
    refine ⟨table.rows.idxOf row, row, below, List.getElem?_idxOf member, beq_self_eq_true row, ?_⟩
    rw [Bool.eq_false_iff, ne_eq, List.contains_iff_mem, List.mem_take_iff_idxOf_lt member]
    exact Nat.lt_irrefl _
  settled := by
    have kept := keepNew_eq_self (nodup_keepNew [] table.rows) fun _ _ => List.not_mem_nil
    rw [distinct, distinct, kept]
  unhashed := fun hash => keepUnhashed_eq hash fun _ => Iff.rfl

end Table

namespace Query

theorem filterRows_withDistinct (query : Query) (config : Config) (flag : Bool) (table : Node) :
    filterRows { query with distinct := flag } config table = query.filterRows config table := by
  have same : keeps { query with distinct := flag } config = query.keeps config := rfl
  exact filterRows_congr same table

/-- The table of a query before its duplicates are considered. -/
def tabulate (query : Query) (config : Config) (document : Node) : Except QueryError Table := do
  Selector.check query.selectors
  let table ← (Path.mk query.root).resolve .strict document
  let rows ← query.filterRows config table
  let projected ← rows.mapM (Selector.project config query.selectors)
  return Table.ofProjected projected

theorem run_withDistinct (query : Query) (config : Config) (flag : Bool) (document : Node) :
    run { query with distinct := flag } config document =
      (query.tabulate config document).map fun table => if flag then table.distinct else table := by
  change _ = (fun table => if flag then table.distinct else table) <$>
    query.tabulate config document
  simp only [run, tabulate, filterRows_withDistinct, map_bind, map_pure]

/-- **Duplicate elimination.** Eliminating the duplicates of a table keeps exactly the first of
equal rows, in order. A query with duplicate elimination is answered exactly if it is answered
without, and its table is the one that it has without, less the duplicates. -/
theorem run_distinct (query : Query) (config : Config) (document : Node) :
    (∀ table : Table, table.Deduplicates table.distinct) ∧
      (Succeeds (run { query with distinct := true } config document) ↔
        Succeeds (run { query with distinct := false } config document)) ∧
      run { query with distinct := true } config document =
        (run { query with distinct := false } config document).map Table.distinct := by
  have eliminated : run { query with distinct := true } config document =
      (run { query with distinct := false } config document).map Table.distinct := by
    rw [run_withDistinct, run_withDistinct]
    cases query.tabulate config document with
    | error failure => rfl
    | ok table => rfl
  refine ⟨Table.deduplicates_distinct, ?_, eliminated⟩
  rw [eliminated, succeeds_map_iff]

end Query

end RowQuery
