import RowQuery.Decimal.Digits

/-! # Times of day

A `Time` counts hours, minutes, seconds and nanoseconds. Second 60 stands for a leap second, which
differs from every other time.
-/

namespace RowQuery

/-- A time of day. -/
structure Time where
  /-- The hour, from 0 to 23. -/
  hour : Nat
  /-- The minute, from 0 to 59. -/
  minute : Nat
  /-- The second, from 0 to 59, or 60 for a leap second. -/
  second : Nat
  /-- The fraction of the second in billionths. -/
  nano : Nat
  hour_lt : hour < 24
  minute_lt : minute < 60
  second_le : second ≤ 60
  nano_lt : nano < 1_000_000_000
deriving DecidableEq

namespace Time

/-- The time with these parts, if the clock has it. -/
def of? (hour minute second nano : Nat) : Option Time :=
  if valid : hour < 24 ∧ minute < 60 ∧ second ≤ 60 ∧ nano < 1_000_000_000 then
    some ⟨hour, minute, second, nano, valid.1, valid.2.1, valid.2.2.1, valid.2.2.2⟩
  else none

/-- A time is found again under its own parts. -/
theorem of?_self (time : Time) : of? time.hour time.minute time.second time.nano = some time :=
  dif_pos ⟨time.hour_lt, time.minute_lt, time.second_le, time.nano_lt⟩

/-- The fraction of a second with no, three, six or nine digits, the fewest that are exact. -/
def fractionText (nano : Nat) : List Char :=
  if nano = 0 then []
  else if nano % 1_000_000 = 0 then '.' :: Digits.padded 3 (nano / 1_000_000)
  else if nano % 1_000 = 0 then '.' :: Digits.padded 6 (nano / 1_000)
  else '.' :: Digits.padded 9 nano

/-- The ISO text of a time, as in `18:25:43.511`. -/
def chars (time : Time) : List Char :=
  Digits.padded 2 time.hour ++ ':' :: Digits.padded 2 time.minute ++
    ':' :: Digits.padded 2 time.second ++ fractionText time.nano

/-- The ISO text of a time. -/
def text (time : Time) : String :=
  String.ofList time.chars

end Time

end RowQuery
