import RowQuery.Table.Cursor

/-! # Movements of a cursor

Wherever its movements take it, a cursor stands before the first row of its table or on one of the
rows (`RowQuery.Cursor.placed_run`). From there it moves by one row or, at an end, not at all; and
set back before the first row and moved on until no row is left, it passes every row once, in order
(`RowQuery.Cursor.exhaust_reset`). `RowQuery.Cursor.Lawful` lists these laws, and they hold after
every run (`RowQuery.Cursor.lawful_run`).
-/

namespace RowQuery.Cursor

variable {cursor : Cursor} {table : Table}

/-- The cursor after several movements. -/
def run (cursor : Cursor) (moves : List Move) : Cursor :=
  moves.foldl Move.apply cursor

/-- Whether a cursor stands before the first row or on a row of its table. -/
def Placed (cursor : Cursor) : Prop :=
  ∀ current, cursor.position = some current → current < cursor.table.rows.length

/-- The number of rows up to and including the current one. -/
def passed (cursor : Cursor) : Nat :=
  match cursor.position with
  | some current => current + 1
  | none => 0

/-! ### One movement -/

theorem advance_of_lt (ahead : cursor.passed < cursor.table.rows.length) :
    cursor.advance = (true, ⟨cursor.table, some cursor.passed⟩) :=
  if_pos ahead

theorem advance_of_le (exhausted : cursor.table.rows.length ≤ cursor.passed) :
    cursor.advance = (false, cursor) :=
  if_neg (Nat.not_lt.mpr exhausted)

theorem retreat_cases (cursor : Cursor) :
    (cursor.position = none ∨ cursor.position = some 0) ∧ cursor.retreat = (false, cursor) ∨
      ∃ previous, cursor.position = some (previous + 1) ∧
        cursor.retreat = (true, ⟨cursor.table, some previous⟩) := by
  obtain ⟨table, position⟩ := cursor
  cases position with
  | none => exact .inl ⟨.inl rfl, rfl⟩
  | some current =>
      cases current with
      | zero => exact .inl ⟨.inr rfl, rfl⟩
      | succ previous => exact .inr ⟨previous, rfl, rfl⟩

theorem table_apply (cursor : Cursor) (move : Move) : (move.apply cursor).table = cursor.table := by
  cases move with
  | advance =>
      rcases Nat.lt_or_ge cursor.passed cursor.table.rows.length with ahead | exhausted
      · rw [Move.apply, advance_of_lt ahead]
      · rw [Move.apply, advance_of_le exhausted]
  | retreat =>
      rcases cursor.retreat_cases with ⟨-, stays⟩ | ⟨previous, -, moves⟩
      · rw [Move.apply, stays]
      · rw [Move.apply, moves]
  | reset => rfl

theorem placed_apply (placed : cursor.Placed) (move : Move) : (move.apply cursor).Placed := by
  cases move with
  | advance =>
      rcases Nat.lt_or_ge cursor.passed cursor.table.rows.length with ahead | exhausted
      · rw [Move.apply, advance_of_lt ahead]
        intro current stands
        obtain rfl := Option.some.inj stands
        exact ahead
      · rwa [Move.apply, advance_of_le exhausted]
  | retreat =>
      rcases cursor.retreat_cases with ⟨-, stays⟩ | ⟨previous, stands, moves⟩
      · rwa [Move.apply, stays]
      · rw [Move.apply, moves]
        intro current back
        obtain rfl := Option.some.inj back
        exact Nat.lt_of_succ_lt (placed _ stands)
  | reset => exact nofun

/-! ### Several movements -/

theorem table_run (cursor : Cursor) (moves : List Move) :
    (cursor.run moves).table = cursor.table := by
  induction moves generalizing cursor with
  | nil => rfl
  | cons move rest ih => exact (ih (move.apply cursor)).trans (table_apply cursor move)

theorem placed_run (placed : cursor.Placed) (moves : List Move) : (cursor.run moves).Placed := by
  induction moves generalizing cursor with
  | nil => exact placed
  | cons move rest ih => exact ih (placed_apply placed move)

/-! ### Passing all rows -/

/-- What is seen of a cursor that is moved on until no row is left: the cursor on every row that it
reaches, and the cursor in the end. -/
def exhaust (cursor : Cursor) : List Cursor × Cursor :=
  if cursor.advance.1 then
    let (reached, last) := cursor.advance.2.exhaust
    (cursor.advance.2 :: reached, last)
  else ([], cursor.advance.2)
termination_by cursor.table.rows.length - cursor.passed
decreasing_by
  next moves =>
  rcases Nat.lt_or_ge cursor.passed cursor.table.rows.length with ahead | exhausted
  · rw [advance_of_lt ahead]
    change cursor.table.rows.length - (cursor.passed + 1) < _
    omega
  · rw [advance_of_le exhausted] at moves
    exact absurd moves nofun

theorem exhaust_of_lt (ahead : cursor.passed < cursor.table.rows.length) :
    cursor.exhaust =
      let next : Cursor := ⟨cursor.table, some cursor.passed⟩
      (next :: next.exhaust.1, next.exhaust.2) := by
  rw [exhaust, advance_of_lt ahead]
  rfl

theorem exhaust_of_le (exhausted : cursor.table.rows.length ≤ cursor.passed) :
    cursor.exhaust = ([], cursor) := by
  rw [exhaust, advance_of_le exhausted]
  rfl

/-- A cursor that is moved on until no row is left stands on each row that was ahead of it, in
order, and in the end on the last of them, or where it stood. -/
theorem exhaust_eq {count : Nat} (ahead : cursor.table.rows.length - cursor.passed = count) :
    cursor.exhaust = ((List.range' cursor.passed count).map fun row => ⟨cursor.table, some row⟩,
      ⟨cursor.table, (List.range' cursor.passed count).getLast?.or cursor.position⟩) := by
  induction count generalizing cursor with
  | zero => exact exhaust_of_le (Nat.le_of_sub_eq_zero ahead)
  | succ count ih =>
      let next : Cursor := ⟨cursor.table, some cursor.passed⟩
      have fewer : next.table.rows.length - next.passed = count := by
        change cursor.table.rows.length - (cursor.passed + 1) = count
        omega
      have later : next.passed = cursor.passed + 1 := rfl
      rw [exhaust_of_lt (Nat.lt_of_sub_eq_succ ahead)]
      change (next :: next.exhaust.1, next.exhaust.2) = _
      rw [ih fewer, later, List.range'_succ, List.map_cons, List.getLast?_cons, Option.some_or,
        Option.or_some]

theorem exhaust_reset (cursor : Cursor) :
    cursor.reset.exhaust =
      ((List.range cursor.table.rows.length).map fun row => ⟨cursor.table, some row⟩,
        ⟨cursor.table, (List.range cursor.table.rows.length).getLast?⟩) := by
  have start : cursor.reset.passed = 0 := rfl
  have before : cursor.reset.position = none := rfl
  have same : cursor.reset.table = cursor.table := rfl
  rw [exhaust_eq rfl, start, before, same, Nat.sub_zero, ← List.range_eq_range', Option.or_none]

/-! ### The laws of a run -/

/-- How a cursor over a table answers wherever it stands. -/
structure Lawful (table : Table) (cursor : Cursor) : Prop where
  /-- Headers and rows are still those of the table. -/
  unchanged : cursor.table = table
  placed : cursor.position = none ∨
    ∃ current, cursor.position = some current ∧ current < table.rows.length
  /-- There is no next row exactly in an empty table and on the last row. -/
  advance_fails_iff : cursor.advance.1 = false ↔
    table.rows.length = 0 ∨ cursor.position = some (table.rows.length - 1)
  advance_stays : cursor.advance.1 = false → cursor.advance.2 = cursor
  advance_moves : cursor.advance.1 = true →
    cursor.position = none ∧ cursor.advance.2 = ⟨table, some 0⟩ ∨
      ∃ current, cursor.position = some current ∧ cursor.advance.2 = ⟨table, some (current + 1)⟩
  /-- There is no row to go back to exactly before the first row and on it. -/
  retreat_fails_iff : cursor.retreat.1 = false ↔
    cursor.position = none ∨ cursor.position = some 0
  retreat_stays : cursor.retreat.1 = false → cursor.retreat.2 = cursor
  retreat_moves : cursor.retreat.1 = true →
    ∃ previous, cursor.position = some (previous + 1) ∧ cursor.retreat.2 = ⟨table, some previous⟩
  reset_eq : cursor.reset = ⟨table, none⟩
  unread_iff : cursor.currentRow = .error .noCurrentRow ↔ cursor.position = none
  read : ∀ current, cursor.position = some current →
    ∃ row, table.rows[current]? = some row ∧ cursor.currentRow = .ok row
  /-- From the start, a cursor that is moved on until no row is left stands on every row in turn. -/
  reached : cursor.reset.exhaust.1 = (List.range table.rows.length).map fun row => ⟨table, some row⟩
  seen : cursor.reset.exhaust.1.map currentRow = table.rows.map .ok
  /-- It stops on the last row, or stays before the first where there is none. -/
  stopped : cursor.reset.exhaust.2 =
    ⟨table, if table.rows.length = 0 then none else some (table.rows.length - 1)⟩

theorem advance_fails_iff_le :
    cursor.advance.1 = false ↔ cursor.table.rows.length ≤ cursor.passed := by
  rcases Nat.lt_or_ge cursor.passed cursor.table.rows.length with ahead | exhausted
  · rw [advance_of_lt ahead]
    exact iff_of_false nofun (Nat.not_le.mpr ahead)
  · rw [advance_of_le exhausted]
    exact iff_of_true rfl exhausted

theorem le_passed_iff (placed : cursor.Placed) :
    cursor.table.rows.length ≤ cursor.passed ↔
      cursor.table.rows.length = 0 ∨ cursor.position = some (cursor.table.rows.length - 1) := by
  unfold passed
  split
  · next current stands =>
      have below := placed current stands
      rw [stands, Option.some.injEq]
      omega
  · next before =>
      rw [before, Nat.le_zero_eq]
      simp only [reduceCtorEq, or_false]

theorem currentRow_of_position {current : Nat} (placed : cursor.Placed)
    (stands : cursor.position = some current) :
    ∃ row, cursor.table.rows[current]? = some row ∧ cursor.currentRow = .ok row := by
  have present := List.getElem?_eq_getElem (placed current stands)
  refine ⟨_, present, ?_⟩
  rw [currentRow, stands, Option.bind_some, present]

theorem map_currentRow_range (table : Table) :
    ((List.range table.rows.length).map fun row => currentRow ⟨table, some row⟩) =
      table.rows.map .ok := by
  apply List.ext_getElem
  · rw [List.length_map, List.length_map, List.length_range]
  · intro row below _
    rw [List.length_map, List.length_range] at below
    rw [List.getElem_map, List.getElem_map, List.getElem_range, currentRow, Option.bind_some,
      List.getElem?_eq_getElem below]

theorem lawful_of_placed (placed : cursor.Placed) : Lawful cursor.table cursor where
  unchanged := rfl
  placed := by
    cases stands : cursor.position with
    | none => exact .inl rfl
    | some current => exact .inr ⟨current, rfl, placed current stands⟩
  advance_fails_iff := by rw [advance_fails_iff_le, le_passed_iff placed]
  advance_stays := by
    intro fails
    rw [advance_of_le (advance_fails_iff_le.mp fails)]
  advance_moves := by
    intro moves
    have ahead : cursor.passed < cursor.table.rows.length := by
      rw [← Nat.not_le, ← advance_fails_iff_le, moves]
      exact nofun
    rw [advance_of_lt ahead, passed]
    cases cursor.position with
    | none => exact .inl ⟨rfl, rfl⟩
    | some current => exact .inr ⟨current, rfl, rfl⟩
  retreat_fails_iff := by
    rcases cursor.retreat_cases with ⟨start, stays⟩ | ⟨previous, stands, moves⟩
    · rw [stays]
      exact iff_of_true rfl start
    · rw [moves, stands]
      exact iff_of_false nofun nofun
  retreat_stays := by
    intro fails
    rcases cursor.retreat_cases with ⟨-, stays⟩ | ⟨previous, -, moves⟩
    · rw [stays]
    · rw [moves] at fails
      exact absurd fails nofun
  retreat_moves := by
    intro succeeds
    rcases cursor.retreat_cases with ⟨-, stays⟩ | ⟨previous, stands, moves⟩
    · rw [stays] at succeeds
      exact absurd succeeds nofun
    · exact ⟨previous, stands, by rw [moves]⟩
  reset_eq := rfl
  unread_iff := by
    cases stands : cursor.position with
    | none =>
        rw [currentRow, stands]
        exact iff_of_true rfl rfl
    | some current =>
        obtain ⟨row, -, read⟩ := currentRow_of_position placed stands
        rw [read]
        exact iff_of_false nofun nofun
  read := fun current stands => currentRow_of_position placed stands
  reached := by rw [exhaust_reset]
  seen := by
    rw [exhaust_reset, List.map_map, ← map_currentRow_range]
    rfl
  stopped := by rw [exhaust_reset, List.getLast?_range]

/-- **The laws of a cursor.** A cursor that starts before the first row of a table obeys the laws of
cursors after every run of movements. -/
theorem lawful_run (table : Table) (moves : List Move) :
    Lawful table (run ⟨table, none⟩ moves) := by
  have start : Placed ⟨table, none⟩ := nofun
  have unchanged : (run ⟨table, none⟩ moves).table = table := table_run ⟨table, none⟩ moves
  have lawful := lawful_of_placed (placed_run start moves)
  rwa [unchanged] at lawful

end RowQuery.Cursor
