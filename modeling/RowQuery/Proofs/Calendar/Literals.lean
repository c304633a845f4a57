import RowQuery.Calendar.Loose
import RowQuery.Proofs.Calendar.Rendering
import RowQuery.Proofs.Recovery

/-! # Temporal literals read back

The reader of literals takes back the ISO text of every time, a leap second included
(`RowQuery.Loose.time?_text`), and the ISO text of every date whose year it may name at all, with or
without a sign (`RowQuery.Loose.datePart?_chars`). So reading the text of a date, a time or a
timestamp recovers each one that some text stands for.
-/

namespace RowQuery.Loose

open Digits (Writes padded)

variable {most width n : Nat} {run rest : List Char}

/-! ### Runs of digits -/

/-- Whether no digit comes next. -/
def Stops (rest : List Char) : Prop :=
  ∀ c ∈ rest.head?, c.isDigit = false

theorem takeWhile_isDigit_of_stops (stops : Stops rest) : rest.takeWhile Char.isDigit = [] := by
  cases rest with
  | nil => rfl
  | cons c rest =>
      rw [List.takeWhile_cons, stops c rfl]
      rfl

theorem Stops.take (stops : Stops rest) (most : Nat) : Stops (rest.take most) := by
  intro c first
  rw [List.head?_take] at first
  split at first
  · cases first
  · exact stops c first

/-- A run is read up to its end if it is as long as a run may be or no digit comes next. -/
theorem digits?_append (writes : Writes width run n) (some_digit : 1 ≤ width)
    (few_digits : width ≤ most) (ends : width = most ∨ Stops rest) :
    digits? most (run ++ rest) = some (n, rest) := by
  have after : (rest.take (most - width)).takeWhile Char.isDigit = [] := by
    rcases ends with rfl | stops
    · rw [Nat.sub_self, List.take_zero, List.takeWhile_nil]
    · exact takeWhile_isDigit_of_stops (stops.take _)
  have taken : ((run ++ rest).take most).takeWhile Char.isDigit = run := by
    rw [List.take_append, List.take_of_length_le (writes.length ▸ few_digits), writes.length,
      List.takeWhile_append_of_pos writes.digits, after, List.append_nil]
  have nonempty : run.isEmpty = false := by
    rw [List.isEmpty_eq_false_iff, ← List.length_pos_iff, writes.length]
    exact some_digit
  rw [digits?, taken, nonempty, writes.read?_eq, List.drop_left]
  rfl

theorem digits?_whole (writes : Writes width run n) (some_digit : 1 ≤ width) (stops : Stops rest) :
    digits? (run ++ rest).length (run ++ rest) = some (n, rest) := by
  refine digits?_append writes some_digit ?_ (.inr stops)
  rw [List.length_append, writes.length]
  exact Nat.le_add_right width _

theorem isBlank_of_isDigit {c : Char} (isDigit : c.isDigit = true) : isBlank c = false := by
  have bounds := Char.isDigit_iff_toNat.mp isDigit
  have zero : '0'.toNat = 48 := rfl
  have nine : '9'.toNat = 57 := rfl
  simp only [isBlank, Bool.or_eq_false_iff, Bool.and_eq_false_iff, decide_eq_false_iff_not]
  omega

theorem exists_cons_of_writes (writes : Writes width run n) (some_digit : 1 ≤ width) :
    ∃ c tail, run = c :: tail ∧ c.isDigit = true := by
  cases run with
  | nil => exact absurd (writes.length ▸ some_digit) (by decide)
  | cons c tail => exact ⟨c, tail, rfl, writes.digits c List.mem_cons_self⟩

theorem skipBlank_append (writes : Writes width run n) (some_digit : 1 ≤ width) :
    skipBlank (run ++ rest) = run ++ rest := by
  obtain ⟨c, tail, rfl, isDigit⟩ := exists_cons_of_writes writes some_digit
  rw [skipBlank, List.cons_append, List.dropWhile_cons, isBlank_of_isDigit isDigit]
  rfl

/-! ### Parts -/

theorem field?_padded (small : n < 100) (rest : List Char) :
    field? (padded 2 n ++ rest) = some (n, rest) := by
  have writes : Writes 2 (padded 2 n) n := Digits.writes_padded small
  rw [field?, skipBlank_append writes (by decide)]
  exact digits?_append writes (by decide) (Nat.le_refl 2) (.inl rfl)

theorem year?_yearText (year : Int) (rest : List Char) :
    year? (Date.yearText year ++ '-' :: rest) = some (year, '-' :: rest) := by
  have stops : Stops ('-' :: rest) := by
    rintro c ⟨⟩
    rfl
  unfold Date.yearText
  split
  · next fourDigits =>
      have small : year.toNat < 10 ^ 4 := by omega
      have writes := Digits.writes_padded small
      have read := digits?_append writes (by decide) (Nat.le_refl 4) (.inr stops)
      -- The text starts with a digit, hence with no sign.
      obtain ⟨c, tail, run, isDigit⟩ := exists_cons_of_writes writes (by decide)
      rw [year?, skipBlank_append writes (by decide), run, List.cons_append]
      split
      · next minus =>
          obtain ⟨rfl, -⟩ := List.cons.inj minus
          cases isDigit
      · next plus =>
          obtain ⟨rfl, -⟩ := List.cons.inj plus
          cases isDigit
      · rw [← List.cons_append, ← run, read]
        simp only [Option.map_some, Int.toNat_of_nonneg fourDigits.1]
  · next others =>
      have writes := Digits.writes_atLeast 4 year.natAbs
      have enough := (Digits.length_atLeast_bounds (show 1 ≤ 4 by decide) year.natAbs).1
      have read := digits?_whole writes (Nat.le_trans (by decide) enough) stops
      by_cases negative : year < 0
      · have value : -(year.natAbs : Int) = year := by omega
        have shown : year? ('-' :: (Digits.atLeast 4 year.natAbs ++ '-' :: rest)) =
            (digits? _ _).map fun read => (-(read.1 : Int), read.2) := rfl
        rw [if_pos negative, List.cons_append, shown, read]
        simp only [Option.map_some, value]
      · have value : (year.natAbs : Int) = year := by omega
        have shown : year? ('+' :: (Digits.atLeast 4 year.natAbs ++ '-' :: rest)) =
            (digits? _ _).map fun read => ((read.1 : Int), read.2) := rfl
        rw [if_neg negative, List.cons_append, shown, read]
        simp only [Option.map_some, value]

theorem after?_cons {separator : Char} (solid : isBlank separator = false) (rest : List Char) :
    after? separator (separator :: rest) = some rest := by
  rw [after?, skipBlank, List.dropWhile_cons, solid]
  exact if_pos rfl

/-- Whether literals may name the year of a date. -/
def Nameable (date : Date) : Prop :=
  yearRange.1 ≤ date.year ∧ date.year ≤ yearRange.2

instance (date : Date) : Decidable (Nameable date) := inferInstanceAs (Decidable (_ ∧ _))

/-- A date is read if its year may be named. -/
theorem datePart?_chars (date : Date) (rest : List Char) :
    datePart? (date.chars ++ rest) = if Nameable date then some (date, rest) else none := by
  have month : date.month < 100 := Nat.lt_of_le_of_lt date.month_mem.2 (by decide)
  have day : date.day < 100 := by
    have inMonth := date.day_mem.2
    have bounds := (daysInMonth_bounds date.year date.month).2
    omega
  have dash : isBlank '-' = false := rfl
  simp only [datePart?, Date.chars, List.append_assoc, List.cons_append, Option.bind_eq_bind,
    year?_yearText, after?_cons dash, field?_padded month, field?_padded day, Option.bind_some,
    date.of?_self, Option.map_some]
  rfl

theorem hourMinute?_chars (time : Time) (rest : List Char) :
    hourMinute? (padded 2 time.hour ++ ':' :: (padded 2 time.minute ++ rest)) =
      some (time.hour, time.minute, rest) := by
  have hour : time.hour < 100 := Nat.lt_trans time.hour_lt (by decide)
  have minute : time.minute < 100 := Nat.lt_trans time.minute_lt (by decide)
  have colon : isBlank ':' = false := rfl
  simp only [hourMinute?, Option.bind_eq_bind, field?_padded hour, after?_cons colon,
    field?_padded minute, Option.bind_some]

theorem fraction?_of_isFraction {chars : List Char} {nano : Nat}
    (isFraction : Iso.IsFraction chars nano) : fraction? chars = some (nano, []) := by
  cases isFraction with
  | absent => rfl
  | @point width n run some_digit few_digits writes =>
      have stops : Stops [] := nofun
      have read := digits?_append writes some_digit few_digits (.inr stops)
      rw [List.append_nil] at read
      rw [fraction?, read, Option.bind_eq_bind, Option.bind_some, writes.length]
      rfl

theorem seconds?_chars (time : Time) :
    seconds? (':' :: (padded 2 time.second ++ Time.fractionText time.nano)) =
      some (time.second, time.nano, []) := by
  have second : time.second < 100 := Nat.lt_of_le_of_lt time.second_le (by decide)
  have colon : isBlank ':' = false := rfl
  have rendered := (Iso.rendersFraction_iff time.nano_lt).mpr rfl
  have fraction := fraction?_of_isFraction rendered.isFraction
  simp only [seconds?, Option.bind_eq_bind, after?_cons colon, field?_padded second, fraction,
    Option.bind_some]

/-- The hour and the minute of a time are read first, and its seconds are left. -/
theorem hourMinute?_time (time : Time) : hourMinute? time.chars = some (time.hour, time.minute,
    ':' :: (padded 2 time.second ++ Time.fractionText time.nano)) := by
  simp only [Time.chars, List.append_assoc, List.cons_append, hourMinute?_chars]

/-! ### Texts -/

/-- Every time is read back, a leap second included. -/
theorem time?_text (time : Time) : time? time.text = some time := by
  have more : ended (':' :: (padded 2 time.second ++ Time.fractionText time.nano)) = false := rfl
  have finished : ended [] = true := rfl
  simp only [time?, Time.text, String.toList_ofList, Option.bind_eq_bind, hourMinute?_time,
    Option.bind_some, more, seconds?_chars, finished, time.of?_self, Bool.false_eq_true, ↓reduceIte]

theorem date?_text (date : Date) :
    date? date.text = if Nameable date then some date else none := by
  have read := datePart?_chars date []
  rw [List.append_nil] at read
  rw [date?, Date.text, String.toList_ofList, read, Option.bind_eq_bind]
  split <;> rfl

theorem dateTime?_text (moment : LocalDateTime) :
    dateTime? moment.text = if Nameable moment.date then some moment else none := by
  have joint : isBlank 'T' = false := rfl
  have finished : ended [] = true := rfl
  rw [dateTime?, LocalDateTime.text, String.toList_ofList, LocalDateTime.chars, datePart?_chars,
    Option.bind_eq_bind]
  split
  · simp only [Option.bind_eq_bind, Option.bind_some, after?_cons joint, hourMinute?_time,
      seconds?_chars, moment.time.of?_self, finished, ↓reduceIte]
  · rfl

theorem nameable_of_datePart? {chars : List Char} {date : Date}
    (read : datePart? chars = some (date, rest)) : Nameable date := by
  simp only [datePart?, Option.bind_eq_bind, Option.bind_eq_some_iff] at read
  obtain ⟨⟨year, afterYear⟩, -, -, -, ⟨month, afterMonth⟩, -, -, -, ⟨day, afterDay⟩, -, read⟩ :=
    read
  dsimp only at read
  split at read
  · next inRange =>
      obtain ⟨other, found, same⟩ := Option.map_eq_some_iff.mp read
      obtain ⟨rfl, -⟩ := Prod.mk.inj same
      rwa [Nameable, (Date.of?_eq_some_iff.mp found).1]
  · cases read

theorem nameable_of_date? {text : String} {date : Date} (read : date? text = some date) :
    Nameable date := by
  simp only [date?, Option.bind_eq_bind, Option.bind_eq_some_iff] at read
  obtain ⟨⟨other, rest⟩, part, whole⟩ := read
  dsimp only at whole
  split at whole
  · cases whole
    exact nameable_of_datePart? part
  · cases whole

theorem nameable_of_dateTime? {text : String} {moment : LocalDateTime}
    (read : dateTime? text = some moment) : Nameable moment.date := by
  simp only [dateTime?, Option.bind_eq_bind, Option.bind_eq_some_iff] at read
  obtain ⟨⟨date, rest⟩, part, -, -, ⟨hour, minute, afterMinute⟩, -, ⟨second, nano, afterSecond⟩, -,
    time, -, whole⟩ := read
  dsimp only at whole
  split at whole
  · cases whole
    exact nameable_of_datePart? part
  · cases whole

theorem recovers_date (date : Date) :
    Recovers (date? date.text) date (∃ text, date? text = some date) :=
  .of_range (date?_text date) nameable_of_date?

theorem recovers_time (time : Time) :
    Recovers (time? time.text) time (∃ text, time? text = some time) :=
  .of_some (time?_text time) ⟨time.text, time?_text time⟩

theorem recovers_dateTime (moment : LocalDateTime) :
    Recovers (dateTime? moment.text) moment (∃ text, dateTime? text = some moment) :=
  .of_range (dateTime?_text moment) nameable_of_dateTime?

end RowQuery.Loose
