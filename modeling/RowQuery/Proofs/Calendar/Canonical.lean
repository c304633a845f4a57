import RowQuery.Proofs.Calendar.Layouts

/-! # Canonical ISO texts

Each date, time, moment and instant has one canonical ISO text. It is given by grammars over
characters, without reference to the writers: seconds are always written, a fraction has three, six
or nine digits or is left out, an instant is written in UTC with `Z`, and a year beyond four digits
has a sign. The writers write these texts and no others; `RowQuery.Iso.rendersInstant_iff` is the
statement for instants, which rests on those for all the parts.
-/

namespace RowQuery

namespace Iso

open Digits

/-- The years: four digits, or outside of 0 to 9999 a sign and at least four digits, of which none
beyond the fourth is a leading zero. -/
inductive RendersYear : List Char → Int → Prop where
  | digits {run : List Char} {n : Nat} (writes : Writes 4 run n) : RendersYear run n
  | signed {sign : Char} {run : List Char} {width : Nat} {year : Int}
      (far : ¬ (0 ≤ year ∧ year ≤ 9999)) (sign_eq : sign = if year < 0 then '-' else '+')
      (writes : Writes width run year.natAbs) (enough : 4 ≤ width)
      (no_more : 4 < width → 10 ^ (width - 1) ≤ year.natAbs) : RendersYear (sign :: run) year

/-- The dates: a year, two digits of the month and two of the day. -/
inductive RendersDate : List Char → Date → Prop where
  | dashed {years months days : List Char} {date : Date} (year : RendersYear years date.year)
      (month_writes : Writes 2 months date.month) (day_writes : Writes 2 days date.day) :
      RendersDate (years ++ '-' :: months ++ '-' :: days) date

/-- The fractions of a second in billionths: nothing, or a point and one to three groups of three
digits, of which the last is not zero. -/
inductive RendersFraction : List Char → Nat → Prop where
  | absent : RendersFraction [] 0
  | point {groups n : Nat} {run : List Char} (some_group : 1 ≤ groups) (few_groups : groups ≤ 3)
      (run_writes : Writes (3 * groups) run n) (last_group : n % 1000 ≠ 0) :
      RendersFraction ('.' :: run) (n * 10 ^ (9 - 3 * groups))

/-- The times: two digits each of the hour, the minute and the second, and a fraction. -/
inductive RendersTime : List Char → Time → Prop where
  | clock {hours minutes seconds fraction : List Char} {time : Time}
      (hour_writes : Writes 2 hours time.hour) (minute_writes : Writes 2 minutes time.minute)
      (second_writes : Writes 2 seconds time.second)
      (renders_fraction : RendersFraction fraction time.nano) :
      RendersTime (hours ++ ':' :: minutes ++ ':' :: seconds ++ fraction) time

/-- The dates and times: a date, `T` and a time. -/
inductive RendersDateTime : List Char → LocalDateTime → Prop where
  | joined {dates times : List Char} {moment : LocalDateTime}
      (renders_date : RendersDate dates moment.date)
      (renders_time : RendersTime times moment.time) :
      RendersDateTime (dates ++ 'T' :: times) moment

/-- The instants: the date and time that clocks in UTC show, and `Z`. -/
inductive RendersInstant : List Char → Instant → Prop where
  | zulu {moments : List Char} {moment : LocalDateTime} {instant : Instant}
      (renders_moment : RendersDateTime moments moment)
      (shows : instant.Shows zeroOffset moment) : RendersInstant (moments ++ ['Z']) instant

variable {chars : List Char}

theorem rendersYear_iff {year : Int} : RendersYear chars year ↔ chars = Date.yearText year := by
  constructor
  · rintro (writes | ⟨far, rfl, writes, enough, no_more⟩)
    · next n =>
        obtain ⟨fits, rfl⟩ := writes_iff.mp writes
        have near : 0 ≤ (n : Int) ∧ (n : Int) ≤ 9999 := by omega
        rw [Date.yearText, if_pos near, Int.toNat_natCast]
    · rw [Date.yearText, if_neg far, writes.eq_atLeast (by decide) enough no_more]
  · rintro rfl
    unfold Date.yearText
    split
    · next near =>
        obtain ⟨n, rfl⟩ := Int.eq_ofNat_of_zero_le near.1
        exact .digits (writes_padded (by omega))
    · next far =>
        obtain ⟨enough, no_more⟩ := length_atLeast_bounds (show 1 ≤ 4 by decide) year.natAbs
        exact .signed far rfl (writes_atLeast 4 _) enough no_more

theorem writes_two_iff {n : Nat} {run : List Char} (small : n < 60) :
    Writes 2 run n ↔ run = padded 2 n := by
  rw [writes_iff, and_iff_right (Nat.lt_trans small (by decide))]

theorem rendersDate_iff {date : Date} : RendersDate chars date ↔ chars = date.chars := by
  have month : date.month < 60 := Nat.lt_of_le_of_lt date.month_mem.2 (by decide)
  have day : date.day < 60 := by
    have inMonth := date.day_mem.2
    have bounds := (daysInMonth_bounds date.year date.month).2
    omega
  constructor
  · rintro ⟨year, monthWrites, dayWrites⟩
    rw [Date.chars, rendersYear_iff.mp year, (writes_two_iff month).mp monthWrites,
      (writes_two_iff day).mp dayWrites]
  · rintro rfl
    exact .dashed (rendersYear_iff.mpr rfl) ((writes_two_iff month).mpr rfl)
      ((writes_two_iff day).mpr rfl)

theorem rendersFraction_iff {nano : Nat} (below : nano < 1_000_000_000) :
    RendersFraction chars nano ↔ chars = Time.fractionText nano := by
  constructor
  · rintro (_ | ⟨some_group, few_groups, writes, last⟩)
    · rfl
    · next groups n run =>
        obtain ⟨-, rfl⟩ := writes_iff.mp writes
        unfold Time.fractionText
        obtain rfl | rfl | rfl : groups = 1 ∨ groups = 2 ∨ groups = 3 := by omega
        · have scaled : n * 10 ^ (9 - 3 * 1) = n * 1_000_000 := rfl
          rw [scaled, if_neg (by omega), if_pos (by omega), Nat.mul_div_cancel _ (by decide)]
        · have scaled : n * 10 ^ (9 - 3 * 2) = n * 1_000 := rfl
          rw [scaled, if_neg (by omega), if_neg (by omega), if_pos (by omega),
            Nat.mul_div_cancel _ (by decide)]
        · have scaled : n * 10 ^ (9 - 3 * 3) = n := Nat.mul_one n
          rw [scaled, if_neg (by omega), if_neg (by omega), if_neg (by omega)]
  · rintro rfl
    unfold Time.fractionText
    split
    · next whole =>
        rw [whole]
        exact .absent
    · split
      · next millis =>
          have exact : nano / 1_000_000 * 10 ^ (9 - 3 * 1) = nano := by omega
          have written : RendersFraction ('.' :: padded (3 * 1) (nano / 1_000_000)) _ :=
            .point (by decide) (by decide) (writes_padded (by omega)) (by omega)
          rwa [exact] at written
      · split
        · next micros =>
            have exact : nano / 1_000 * 10 ^ (9 - 3 * 2) = nano := by omega
            have written : RendersFraction ('.' :: padded (3 * 2) (nano / 1_000)) _ :=
              .point (by decide) (by decide) (writes_padded (by omega)) (by omega)
            rwa [exact] at written
        · next nanos =>
            have written : RendersFraction ('.' :: padded (3 * 3) nano) (nano * 10 ^ (9 - 3 * 3)) :=
              .point (by decide) (by decide) (writes_padded below) nanos
            rwa [Nat.sub_self, Nat.pow_zero, Nat.mul_one] at written

theorem rendersTime_iff {time : Time} : RendersTime chars time ↔ chars = time.chars := by
  have hour : time.hour < 60 := Nat.lt_trans time.hour_lt (by decide)
  have second : time.second < 100 := Nat.lt_of_le_of_lt time.second_le (by decide)
  constructor
  · rintro ⟨hourWrites, minuteWrites, secondWrites, fraction⟩
    rw [Time.chars, (writes_two_iff hour).mp hourWrites,
      (writes_two_iff time.minute_lt).mp minuteWrites, (writes_iff.mp secondWrites).2,
      (rendersFraction_iff time.nano_lt).mp fraction]
  · rintro rfl
    exact .clock ((writes_two_iff hour).mpr rfl) ((writes_two_iff time.minute_lt).mpr rfl)
      (writes_padded second) ((rendersFraction_iff time.nano_lt).mpr rfl)

theorem rendersDateTime_iff {moment : LocalDateTime} :
    RendersDateTime chars moment ↔ chars = moment.chars := by
  constructor
  · rintro ⟨date, time⟩
    rw [LocalDateTime.chars, rendersDate_iff.mp date, rendersTime_iff.mp time]
  · rintro rfl
    exact .joined (rendersDate_iff.mpr rfl) (rendersTime_iff.mpr rfl)

/-- Clocks in UTC show the date and time of an instant. -/
theorem shows_zeroOffset_iff {instant : Instant} {moment : LocalDateTime} :
    instant.Shows zeroOffset moment ↔ moment = instant.utc := by
  have zero : zeroOffset.total = 0 := rfl
  constructor
  · rintro ⟨minute, second, nano⟩
    rw [zero, Int.sub_zero] at minute
    exact (LocalDateTime.eq_of_minuteNumber_eq minute second nano).symm
  · rintro rfl
    exact ⟨by rw [zero, Int.sub_zero], rfl, rfl⟩

theorem rendersInstant_iff {instant : Instant} :
    RendersInstant chars instant ↔ chars = instant.chars := by
  constructor
  · rintro ⟨renders, shows⟩
    rw [Instant.chars, rendersDateTime_iff.mp renders, shows_zeroOffset_iff.mp shows]
  · rintro rfl
    exact .zulu (rendersDateTime_iff.mpr rfl) (shows_zeroOffset_iff.mpr rfl)

end Iso

end RowQuery
