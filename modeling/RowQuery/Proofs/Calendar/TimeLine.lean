import RowQuery.Calendar.Moment

/-! # Days and minutes on the time line

Every date has a number on the line of days (`RowQuery.Date.dayNumber`), which the following day
raises by one and the preceding day lowers by one, and every date and time stands in a minute of the
line of minutes. The instant that belongs to a local date and time is the one that lies the offset's
minutes earlier (`RowQuery.Instant.shows_iff`).
-/

namespace RowQuery

/-! ### Days of a year -/

theorem isLeapYear_iff {year : Int} :
    isLeapYear year = true ↔ year % 4 = 0 ∧ (year % 100 ≠ 0 ∨ year % 400 = 0) := by
  simp only [isLeapYear, ne_eq, decide_not, Bool.and_eq_true, decide_eq_true_eq, Bool.or_eq_true,
    Bool.not_eq_true', decide_eq_false_iff_not]

/-- The days of a year up to the end of a month. -/
def daysThrough (year : Int) : (month : Nat) → Nat
  | 0 => 0
  | month + 1 => daysThrough year month + daysInMonth year (month + 1)

theorem daysThrough_zero (year : Int) : daysThrough year 0 = 0 := rfl

/-- The days from the first day of the year 0 to the first day of a year. -/
def daysBeforeYear (year : Int) : Int :=
  365 * year + (year + 3) / 4 - (year + 99) / 100 + (year + 399) / 400

theorem daysThrough_december (year : Int) :
    daysThrough year 12 = if isLeapYear year then 366 else 365 := by
  cases leap : isLeapYear year <;> simp [daysThrough, daysInMonth, leap]

theorem daysBeforeYear_succ (year : Int) :
    daysBeforeYear (year + 1) = daysBeforeYear year + daysThrough year 12 := by
  rw [daysThrough_december, daysBeforeYear, daysBeforeYear]
  split
  · next leap =>
      rw [isLeapYear_iff] at leap
      omega
  · next common =>
      rw [isLeapYear_iff] at common
      omega

theorem daysThrough_mono (year : Int) {first second : Nat} (before : first ≤ second) :
    daysThrough year first ≤ daysThrough year second := by
  induction before with
  | refl => exact Nat.le_refl _
  | step _ ih => exact Nat.le_trans ih (Nat.le_add_right _ _)

theorem daysBeforeYear_mono {first second : Int} (before : first ≤ second) :
    daysBeforeYear first ≤ daysBeforeYear second := by
  unfold daysBeforeYear
  omega

/-! ### Days of the calendar -/

namespace Date

/-- The number of a day; the first day of the year 0 has the number 1. -/
def dayNumber (date : Date) : Int :=
  daysBeforeYear date.year + daysThrough date.year (date.month - 1) + date.day

theorem daysThrough_month (date : Date) : daysThrough date.year date.month =
    daysThrough date.year (date.month - 1) + daysInMonth date.year date.month := by
  obtain ⟨month, same⟩ := Nat.exists_eq_succ_of_ne_zero (Nat.ne_of_gt date.month_mem.1)
  rw [same, Nat.succ_eq_add_one, Nat.add_sub_cancel, daysThrough]

/-- A day lies in its year, after the days of the years before. -/
theorem dayNumber_mem_year (date : Date) :
    daysBeforeYear date.year < date.dayNumber ∧
      date.dayNumber ≤ daysBeforeYear (date.year + 1) := by
  have inMonth := date.daysThrough_month
  have inYear := daysThrough_mono date.year date.month_mem.2
  have day := date.day_mem
  rw [daysBeforeYear_succ, dayNumber]
  omega

theorem dayNumber_lt_of_year {first second : Date} (earlier : first.year < second.year) :
    first.dayNumber < second.dayNumber :=
  calc first.dayNumber
    _ ≤ daysBeforeYear (first.year + 1) := first.dayNumber_mem_year.2
    _ ≤ daysBeforeYear second.year := daysBeforeYear_mono (Int.add_one_le_of_lt earlier)
    _ < second.dayNumber := second.dayNumber_mem_year.1

theorem dayNumber_lt_of_month {first second : Date} (year : first.year = second.year)
    (earlier : first.month < second.month) : first.dayNumber < second.dayNumber := by
  have inMonth := first.daysThrough_month
  have later := daysThrough_mono first.year (Nat.le_sub_one_of_lt earlier)
  have firstDay := first.day_mem
  have secondDay := second.day_mem
  rw [dayNumber, dayNumber, ← year]
  omega

/-- Different days have different numbers. -/
theorem eq_of_dayNumber_eq {first second : Date} (same : first.dayNumber = second.dayNumber) :
    first = second := by
  have year : first.year = second.year := by
    rcases Int.lt_trichotomy first.year second.year with earlier | equal | later
    · exact absurd same (Int.ne_of_lt (dayNumber_lt_of_year earlier))
    · exact equal
    · exact absurd same (Int.ne_of_gt (dayNumber_lt_of_year later))
  have month : first.month = second.month := by
    rcases Nat.lt_trichotomy first.month second.month with earlier | equal | later
    · exact absurd same (Int.ne_of_lt (dayNumber_lt_of_month year earlier))
    · exact equal
    · exact absurd same (Int.ne_of_gt (dayNumber_lt_of_month year.symm later))
  have day : first.day = second.day := by
    rw [dayNumber, dayNumber, year, month] at same
    omega
  cases first
  cases second
  cases year
  cases month
  cases day
  rfl

theorem dayNumber_next (date : Date) : date.next.dayNumber = date.dayNumber + 1 := by
  have inMonth := date.daysThrough_month
  have day := date.day_mem
  have month := date.month_mem
  unfold next
  split
  · simp only [dayNumber]
    omega
  · split
    · simp only [dayNumber, firstOfMonth, Nat.add_sub_cancel]
      omega
    · have last : date.month = 12 := by omega
      have january := daysThrough_zero (date.year + 1)
      have full : date.day = daysInMonth date.year date.month := by omega
      rw [last] at inMonth full
      simp only [dayNumber, firstOfMonth, daysBeforeYear_succ, Nat.sub_self, last]
      omega

theorem dayNumber_previous (date : Date) : date.previous.dayNumber = date.dayNumber - 1 := by
  have day := date.day_mem
  have month := date.month_mem
  unfold previous
  split
  · simp only [dayNumber]
    omega
  · split
    · next inYear =>
        have inMonth := daysThrough_month (lastOfMonth date.year (date.month - 1) (by omega))
        simp only [dayNumber, lastOfMonth] at inMonth ⊢
        omega
    · have first : date.month = 1 := by omega
      have january := daysThrough_zero date.year
      have inYear := daysBeforeYear_succ (date.year - 1)
      have inMonth := daysThrough_month (lastOfMonth (date.year - 1) 12 (by decide))
      rw [Int.sub_add_cancel] at inYear
      simp only [dayNumber, lastOfMonth, first, Nat.sub_self] at inMonth ⊢
      omega

end Date

/-! ### Minutes and instants -/

/-- The minute of the time line in which a date and time stands. -/
def LocalDateTime.minuteNumber (moment : LocalDateTime) : Int :=
  1440 * moment.date.dayNumber + (60 * moment.time.hour + moment.time.minute : Nat)

/-- Two moments are the same if they stand in the same minute, at the same second and fraction. -/
theorem LocalDateTime.eq_of_minuteNumber_eq {first second : LocalDateTime}
    (minute : first.minuteNumber = second.minuteNumber)
    (atSecond : first.time.second = second.time.second)
    (nano : first.time.nano = second.time.nano) : first = second := by
  obtain ⟨firstDate, firstTime⟩ := first
  obtain ⟨secondDate, secondTime⟩ := second
  have firstHour := firstTime.hour_lt
  have firstMinute := firstTime.minute_lt
  have secondHour := secondTime.hour_lt
  have secondMinute := secondTime.minute_lt
  simp only [minuteNumber] at minute atSecond nano
  have day : firstDate = secondDate := Date.eq_of_dayNumber_eq (by omega)
  have ofDay : firstTime.hour = secondTime.hour ∧ firstTime.minute = secondTime.minute := by omega
  cases firstTime
  cases secondTime
  cases day
  cases ofDay.1
  cases ofDay.2
  cases atSecond
  cases nano
  rfl

namespace Instant

/-- Whether clocks with an offset show a date and a time at an instant: the minute of the instant is
the shown one minus the offset. -/
structure Shows (instant : Instant) (offset : Offset) (moment : LocalDateTime) : Prop where
  minute : instant.utc.minuteNumber = moment.minuteNumber - offset.total
  second : instant.utc.time.second = moment.time.second
  nano : instant.utc.time.nano = moment.time.nano

theorem shows_ofLocal (moment : LocalDateTime) (offset : Offset) :
    (ofLocal moment offset).Shows offset moment := by
  refine ⟨?_, rfl, rfl⟩
  obtain ⟨date, time⟩ := moment
  have hour := time.hour_lt
  have minute := time.minute_lt
  have bounds : -1440 < offset.total ∧ offset.total < 1440 := by
    have hours := offset.hours_lt
    have minutes := offset.minutes_lt
    unfold Offset.total
    dsimp only
    split <;> omega
  simp only [ofLocal, LocalDateTime.minuteNumber]
  split
  · rw [Date.dayNumber_previous]
    omega
  · split
    · rw [Date.dayNumber_next]
      omega
    · omega

/-- An instant is determined by what clocks with an offset show. -/
theorem shows_iff {instant : Instant} {offset : Offset} {moment : LocalDateTime} :
    instant.Shows offset moment ↔ instant = ofLocal moment offset := by
  constructor
  · intro shown
    have computed := shows_ofLocal moment offset
    have same : instant.utc = (ofLocal moment offset).utc :=
      LocalDateTime.eq_of_minuteNumber_eq (shown.minute.trans computed.minute.symm)
        (shown.second.trans computed.second.symm) (shown.nano.trans computed.nano.symm)
    exact congrArg Instant.mk same
  · rintro rfl
    exact shows_ofLocal moment offset

end Instant

end RowQuery
