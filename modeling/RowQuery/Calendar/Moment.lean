import RowQuery.Calendar.Date
import RowQuery.Calendar.Time

/-! # Dates with times

A `LocalDateTime` is a date and a time at no particular place. An `Instant` is a point on the time
line, kept as its date and time at offset zero.
-/

namespace RowQuery

/-- A date and a time of day without an offset. -/
structure LocalDateTime where
  /-- The day. -/
  date : Date
  /-- The time on that day. -/
  time : Time
deriving DecidableEq

namespace LocalDateTime

/-- The ISO text of a date and time, as in `2012-04-23T18:25:43`. -/
def chars (moment : LocalDateTime) : List Char :=
  moment.date.chars ++ 'T' :: moment.time.chars

/-- The ISO text of a date and time. -/
def text (moment : LocalDateTime) : String :=
  String.ofList moment.chars

end LocalDateTime

/-- A distance from the time line's reference, less than a day in either direction. -/
structure Offset where
  /-- Whether local clocks are behind. -/
  behind : Bool
  /-- The whole hours. -/
  hours : Nat
  /-- The minutes beyond the whole hours. -/
  minutes : Nat
  hours_lt : hours < 24
  minutes_lt : minutes < 60

/-- The offset in minutes. -/
def Offset.total (offset : Offset) : Int :=
  let magnitude : Int := offset.hours * 60 + offset.minutes
  if offset.behind then -magnitude else magnitude

/-- A point on the time line. -/
structure Instant where
  /-- Its date and time at offset zero. -/
  utc : LocalDateTime
deriving DecidableEq

namespace Instant

/-- The instant at which clocks with an offset show a date and time: the local time minus the
offset. The offset is less than a day, so the date moves by one day at most. -/
def ofLocal (moment : LocalDateTime) (offset : Offset) : Instant :=
  let time := moment.time
  let minutes : Int := time.hour * 60 + time.minute - offset.total
  let date :=
    if minutes < 0 then moment.date.previous
    else if 1440 ≤ minutes then moment.date.next
    else moment.date
  let shifted := (minutes % 1440).toNat
  have inDay : shifted < 1440 := by omega
  { utc :=
      { date
        time :=
          { hour := shifted / 60
            minute := shifted % 60
            second := time.second
            nano := time.nano
            hour_lt := by omega
            minute_lt := by omega
            second_le := time.second_le
            nano_lt := time.nano_lt } } }

/-- The ISO text of an instant at offset zero, as in `2012-04-23T18:25:43.511Z`. -/
def chars (instant : Instant) : List Char :=
  instant.utc.chars ++ ['Z']

/-- The ISO text of an instant. -/
def text (instant : Instant) : String :=
  String.ofList instant.chars

end Instant

end RowQuery
