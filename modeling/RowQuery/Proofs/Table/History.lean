import RowQuery.Proofs.Table.Layout

/-! # Histories of projected rows

Insertions and removals of values make a map out of the empty row, in insertion order: its columns
stand where their names were first inserted, and each one holds the value inserted last, or null
once that value has been taken out (`RowQuery.ProjectedRow.Latest`). Taking a value out of it
changes no other column. `RowQuery.ProjectedRow.Records` lists these laws. They hold after every
history, and of no other row (`RowQuery.ProjectedRow.records_iff_eq_run`).
-/

namespace RowQuery.ProjectedRow

variable {row other : ProjectedRow} {history : List Step} {name : String} {value : Value}

/-- The name under which a step inserts a value. -/
def Step.inserted? : Step → Option String
  | .insert name _ => some name
  | .take _ => none

/-- The names of a history's insertions, in order and as often as they occur. -/
def inserted (history : List Step) : List String :=
  history.filterMap Step.inserted?

/-- Whether a history leaves this value under a name. -/
inductive Latest : List Step → String → Value → Prop where
  /-- The value inserted last stays where it is not taken out. -/
  | kept {before after : List Step} {name : String} {value : Value}
      (last : name ∉ inserted after) (untaken : .take name ∉ after) :
      Latest (before ++ .insert name value :: after) name value
  /-- Null stays where the value inserted last is taken out. -/
  | taken {before after : List Step} {name : String} {value : Value}
      (last : name ∉ inserted after) (taken : .take name ∈ after) :
      Latest (before ++ .insert name value :: after) name .null

/-- Whether a row is the map, in insertion order, that a history describes. -/
structure Records (row : ProjectedRow) (history : List Step) : Prop where
  distinct : (Fields.names row).Nodup
  /-- The columns are the inserted names, in the order of their first insertion. -/
  ordered : Fields.names row = (inserted history).eraseDups
  absent_iff : ∀ name, row.get? name = none ↔ name ∉ inserted history
  present_iff : ∀ name value, row.get? name = some value ↔ Latest history name value
  take_value : ∀ name, (row.take name).1 = row.get? name
  /-- Taking a value out leaves every column in its place, the one null and all others as they
  were. -/
  take_row : ∀ name, (row.take name).2 =
    row.map fun column => (column.1, if column.1 = name then .null else column.2)

/-! ### Single steps -/

theorem get?_take_self (present : row.get? name ≠ none) :
    Fields.get? (row.take name).2 name = some .null := by
  unfold take
  split
  · rw [Fields.get?_put, if_pos rfl]
  · next absent => exact absurd absent present

theorem take_snd (distinct : (Fields.names row).Nodup) (name : String) :
    (row.take name).2 =
      row.map fun column => (column.1, if column.1 = name then .null else column.2) := by
  unfold take
  split
  · next value present =>
      exact Fields.put_of_known distinct (Fields.mem_names_of_get? present) .null
  · next absent => exact (Fields.map_of_fresh (Fields.get?_eq_none_iff.mp absent) .null).symm

theorem get?_step_of_untouched {step : Step} (uninserted : step.inserted? ≠ some name)
    (untaken : step ≠ .take name) : Fields.get? (step.apply row) name = row.get? name := by
  cases step with
  | insert column value =>
      have different : name ≠ column := fun same => uninserted (congrArg some same.symm)
      rw [Step.apply, Fields.get?_put, if_neg different]
  | take column =>
      have different : name ≠ column := fun same => untaken (congrArg Step.take same.symm)
      rw [Step.apply, get?_take_of_ne different]

/-! ### Histories -/

theorem nodup_names_nil : (Fields.names ([] : ProjectedRow)).Nodup :=
  List.nodup_nil

theorem mem_inserted_cons_iff {step : Step} :
    name ∈ inserted (step :: history) ↔ step.inserted? = some name ∨ name ∈ inserted history := by
  simp only [inserted, List.mem_filterMap, List.mem_cons, exists_eq_or_imp]

theorem mem_inserted_append_iff {before after : List Step} :
    name ∈ inserted (before ++ after) ↔ name ∈ inserted before ∨ name ∈ inserted after := by
  rw [inserted, List.filterMap_append, List.mem_append, inserted, inserted]

theorem run_append (row : ProjectedRow) (before after : List Step) :
    row.run (before ++ after) = (row.run before).run after :=
  List.foldl_append

/-- A history appends the names that it inserts to distinct columns, each where it comes first. -/
theorem names_run (distinct : (Fields.names row).Nodup) (history : List Step) :
    Fields.names (row.run history) = (Fields.names row ++ inserted history).eraseDups := by
  induction history generalizing row with
  | nil =>
      rw [inserted, List.filterMap_nil, List.append_nil, Fields.eraseDups_eq_self_of_nodup distinct]
      rfl
  | cons step rest ih =>
      have later := ih (nodup_names_step distinct step)
      cases step with
      | insert name value =>
          exact later.trans (Fields.eraseDups_names_put row name value (inserted rest))
      | take name => rwa [Step.apply, names_take] at later

theorem names_run_nil (history : List Step) :
    Fields.names (run [] history) = (inserted history).eraseDups :=
  names_run nodup_names_nil history

theorem get?_run_nil_eq_none_iff :
    Fields.get? (run [] history) name = none ↔ name ∉ inserted history := by
  rw [Fields.get?_eq_none_iff, names_run_nil, List.mem_eraseDups]

/-- A column that a history neither inserts nor takes holds what it held. -/
theorem get?_run_of_untouched (uninserted : name ∉ inserted history)
    (untaken : .take name ∉ history) : Fields.get? (row.run history) name = row.get? name := by
  induction history generalizing row with
  | nil => rfl
  | cons step rest ih =>
      obtain ⟨here, later⟩ := not_or.mp (mt mem_inserted_cons_iff.mpr uninserted)
      obtain ⟨different, unshared⟩ := List.ne_and_not_mem_of_not_mem_cons untaken
      exact (ih later unshared).trans (get?_step_of_untouched here different.symm)

/-- A column that is taken after it was last inserted holds null. -/
theorem get?_run_of_taken {before after : List Step} (known : name ∈ inserted before)
    (last : name ∉ inserted after) (taken : .take name ∈ after) :
    Fields.get? (run [] (before ++ after)) name = some .null := by
  -- Steps after the last removal do not touch the null that it leaves.
  obtain ⟨between, _, rest, rfl, rfl, untaken⟩ :=
    Fields.exists_last_where ⟨Step.take name, taken, rfl⟩
  have later : name ∉ inserted rest := fun member =>
    last (mem_inserted_append_iff.mpr (.inr (mem_inserted_cons_iff.mpr (.inr member))))
  have present : Fields.get? (run [] (before ++ between)) name ≠ none := fun absent =>
    get?_run_nil_eq_none_iff.mp absent (mem_inserted_append_iff.mpr (.inl known))
  rw [← List.append_assoc, run_append]
  change Fields.get? (run (take _ name).2 rest) name = _
  rw [get?_run_of_untouched later fun member => untaken _ member rfl, get?_take_self present]

theorem get?_run_of_latest (latest : Latest history name value) :
    Fields.get? (run [] history) name = some value := by
  cases latest with
  | @kept before after _ _ last untaken =>
      rw [run_append]
      change Fields.get? (run (Fields.put (run [] before) name value) after) name = _
      rw [get?_run_of_untouched last untaken, Fields.get?_put, if_pos rfl]
  | @taken before after _ _ last taken =>
      rw [List.append_cons]
      refine get?_run_of_taken ?_ last taken
      exact mem_inserted_append_iff.mpr (.inr (mem_inserted_cons_iff.mpr (.inl rfl)))

theorem exists_latest (known : name ∈ inserted history) : ∃ value, Latest history name value := by
  obtain ⟨before, step, after, rfl, inserts, last⟩ :=
    Fields.exists_last_where (List.mem_filterMap.mp known)
  have unreplaced : name ∉ inserted after := fun member => by
    obtain ⟨later, behind, again⟩ := List.mem_filterMap.mp member
    exact last later behind again
  cases step with
  | insert column value =>
      obtain rfl := Option.some.inj inserts
      by_cases taken : .take column ∈ after
      · exact ⟨.null, .taken unreplaced taken⟩
      · exact ⟨value, .kept unreplaced taken⟩
  | take column => exact absurd inserts nofun

theorem get?_run_nil_eq_some_iff :
    Fields.get? (run [] history) name = some value ↔ Latest history name value := by
  refine ⟨fun present => ?_, get?_run_of_latest⟩
  have known : name ∈ inserted history := by
    by_contra unknown
    rw [get?_run_nil_eq_none_iff.mpr unknown] at present
    exact absurd present nofun
  obtain ⟨found, latest⟩ := exists_latest known
  rw [get?_run_of_latest latest] at present
  exact Option.some.inj present ▸ latest

/-! ### Rows that record a history -/

theorem records_run (history : List Step) : (run [] history).Records history where
  distinct := nodup_names_run nodup_names_nil history
  ordered := names_run_nil history
  absent_iff := fun _ => get?_run_nil_eq_none_iff
  present_iff := fun _ _ => get?_run_nil_eq_some_iff
  take_value := take_fst _
  take_row := take_snd (nodup_names_run nodup_names_nil history)

/-- A history is recorded by one row only. -/
theorem Records.unique (first : row.Records history) (second : other.Records history) :
    row = other := by
  refine Fields.eq_of_names_of_get? first.distinct (first.ordered.trans second.ordered.symm) ?_
  intro name _
  refine Option.ext fun value => ?_
  rw [first.present_iff, second.present_iff]

/-- **Projected rows as maps in insertion order.** The row that a history of insertions and removals
makes out of the empty row, and no other row, has the inserted names as its distinct columns, in the
order of their first insertion; under each it holds the value inserted last, or null if that value
has been taken out since. Taking a value out of it gives what the row holds, leaves null behind in
the same place, and changes no other column. -/
theorem records_iff_eq_run (row : ProjectedRow) (history : List Step) :
    row.Records history ↔ row = run [] history :=
  ⟨fun records => records.unique (records_run history), fun same => same ▸ records_run history⟩

example : run [] [.insert "a" (.integer 1), .insert "b" (.integer 2), .take "a",
      .insert "a" (.integer 3), .take "c", .take "b"] =
    [("a", .integer 3), ("b", .null)] := rfl

end RowQuery.ProjectedRow
