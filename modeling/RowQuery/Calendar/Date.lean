import RowQuery.Decimal.Digits

/-! # Calendar dates

Dates of the proleptic Gregorian calendar, year zero included. A `Date` is a valid day by
construction: `Date.of?` checks the day against the length of its month.
-/

namespace RowQuery

/-- Whether a year has a 29th of February. -/
def isLeapYear (year : Int) : Bool :=
  year % 4 = 0 && (year % 100 ≠ 0 || year % 400 = 0)

/-- The number of days in a month, counted from January as 1. -/
def daysInMonth (year : Int) (month : Nat) : Nat :=
  if month = 2 then (if isLeapYear year then 29 else 28)
  else if month = 4 ∨ month = 6 ∨ month = 9 ∨ month = 11 then 30
  else 31

/-- No month is shorter than 28 days or longer than 31. -/
theorem daysInMonth_bounds (year : Int) (month : Nat) :
    28 ≤ daysInMonth year month ∧ daysInMonth year month ≤ 31 := by
  unfold daysInMonth
  split
  · split <;> decide
  · split <;> decide

/-- A day of the calendar. -/
structure Date where
  /-- The year, zero and below included. -/
  year : Int
  /-- The month, from 1 to 12. -/
  month : Nat
  /-- The day of the month, from 1. -/
  day : Nat
  month_mem : 1 ≤ month ∧ month ≤ 12
  day_mem : 1 ≤ day ∧ day ≤ daysInMonth year month
deriving DecidableEq

namespace Date

/-- The day with this year, month and day of the month, if the calendar has it. -/
def of? (year : Int) (month day : Nat) : Option Date :=
  if valid : (1 ≤ month ∧ month ≤ 12) ∧ 1 ≤ day ∧ day ≤ daysInMonth year month then
    some ⟨year, month, day, valid.1, valid.2⟩
  else none

/-- A date is found again under its own year, month and day. -/
theorem of?_self (date : Date) : of? date.year date.month date.day = some date :=
  dif_pos ⟨date.month_mem, date.day_mem⟩

/-- The first day of a month. -/
def firstOfMonth (year : Int) (month : Nat) (mem : 1 ≤ month ∧ month ≤ 12) : Date :=
  ⟨year, month, 1, mem, Nat.le_refl 1,
    Nat.le_trans (by decide) (daysInMonth_bounds year month).1⟩

/-- The last day of a month. -/
def lastOfMonth (year : Int) (month : Nat) (mem : 1 ≤ month ∧ month ≤ 12) : Date :=
  ⟨year, month, daysInMonth year month, mem,
    Nat.le_trans (by decide) (daysInMonth_bounds year month).1, Nat.le_refl _⟩

/-- The following day. -/
def next (date : Date) : Date :=
  if inMonth : date.day + 1 ≤ daysInMonth date.year date.month then
    ⟨date.year, date.month, date.day + 1, date.month_mem, Nat.le_add_left 1 _, inMonth⟩
  else if inYear : date.month + 1 ≤ 12 then
    firstOfMonth date.year (date.month + 1) ⟨Nat.le_add_left 1 _, inYear⟩
  else firstOfMonth (date.year + 1) 1 (by decide)

/-- The preceding day. -/
def previous (date : Date) : Date :=
  if inMonth : 1 ≤ date.day - 1 then
    ⟨date.year, date.month, date.day - 1, date.month_mem, inMonth,
      Nat.le_trans (Nat.sub_le _ _) date.day_mem.2⟩
  else if inYear : 1 ≤ date.month - 1 then
    lastOfMonth date.year (date.month - 1)
      ⟨inYear, Nat.le_trans (Nat.sub_le _ _) date.month_mem.2⟩
  else lastOfMonth (date.year - 1) 12 (by decide)

/-- Four digits for the years 0 to 9999; a sign and at least four digits for all others. -/
def yearText (year : Int) : List Char :=
  if 0 ≤ year ∧ year ≤ 9999 then Digits.padded 4 year.toNat
  else (if year < 0 then '-' else '+') :: Digits.atLeast 4 year.natAbs

/-- The ISO text of a date, as in `1982-11-30`. -/
def chars (date : Date) : List Char :=
  yearText date.year ++ '-' :: Digits.padded 2 date.month ++ '-' :: Digits.padded 2 date.day

/-- The ISO text of a date. -/
def text (date : Date) : String :=
  String.ofList date.chars

end Date

end RowQuery
