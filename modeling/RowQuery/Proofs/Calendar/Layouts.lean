import RowQuery.Calendar.Iso
import RowQuery.Proofs.Calendar.TimeLine
import RowQuery.Proofs.Decimal.Digits
import Mathlib.Data.List.Basic

/-! # ISO layouts as grammars

The layouts are given as grammars over characters, without reference to the readers: `IsDate`,
`IsTime`, `IsDateTime` and `IsInstant` relate a text to the date, time, moment or instant that it
writes. Each reader accepts exactly the texts of its grammar; `RowQuery.Iso.instant?_eq_some_iff` is
the statement for instants, which rests on those for all the other layouts.
-/

namespace RowQuery

theorem Date.of?_eq_some_iff {year : Int} {month day : Nat} {date : Date} :
    of? year month day = some date ↔ date.year = year ∧ date.month = month ∧ date.day = day := by
  constructor
  · intro found
    unfold of? at found
    split at found
    · obtain rfl := Option.some.inj found
      exact ⟨rfl, rfl, rfl⟩
    · cases found
  · rintro ⟨rfl, rfl, rfl⟩
    exact date.of?_self

theorem Time.of?_eq_some_iff {hour minute second nano : Nat} {time : Time} :
    of? hour minute second nano = some time ↔
      time.hour = hour ∧ time.minute = minute ∧ time.second = second ∧ time.nano = nano := by
  constructor
  · intro found
    unfold of? at found
    split at found
    · obtain rfl := Option.some.inj found
      exact ⟨rfl, rfl, rfl, rfl⟩
    · cases found
  · rintro ⟨rfl, rfl, rfl, rfl⟩
    exact time.of?_self

namespace Iso

open Digits (Writes)

/-- The dates: four digits of the year, two of the month and two of the day. -/
inductive IsDate : List Char → Date → Prop where
  | dashed {years months days : List Char} {year : Nat} {date : Date}
      (year_writes : Writes 4 years year) (year_eq : date.year = year)
      (month_writes : Writes 2 months date.month) (day_writes : Writes 2 days date.day) :
      IsDate (years ++ '-' :: months ++ '-' :: days) date

/-- The fractions of a second in billionths: nothing, or a point and one to nine digits. -/
inductive IsFraction : List Char → Nat → Prop where
  | absent : IsFraction [] 0
  | point {width n : Nat} {run : List Char} (some_digit : 1 ≤ width) (few_digits : width ≤ 9)
      (run_writes : Writes width run n) : IsFraction ('.' :: run) (n * 10 ^ (9 - width))

/-- The seconds of a time with their fraction: nothing, or two digits, at most 59, and a
fraction. -/
inductive IsSeconds : (written : Bool) → List Char → (second nano : Nat) → Prop where
  | omitted : IsSeconds false [] 0 0
  | written {seconds fraction : List Char} {second nano : Nat}
      (second_writes : Writes 2 seconds second) (second_le : second ≤ 59)
      (is_fraction : IsFraction fraction nano) :
      IsSeconds true (':' :: seconds ++ fraction) second nano

/-- The times: two digits of the hour, two of the minute, and the seconds, which may be left out
unless `precise`. -/
inductive IsTime (precise : Bool) : List Char → Time → Prop where
  | clock {hours minutes rest : List Char} {time : Time}
      (hour_writes : Writes 2 hours time.hour) (minute_writes : Writes 2 minutes time.minute)
      (is_seconds : IsSeconds precise rest time.second time.nano) :
      IsTime precise (hours ++ ':' :: minutes ++ rest) time

/-- The dates and times: a date, `T` and a time. -/
inductive IsDateTime (seconds : Bool) : List Char → LocalDateTime → Prop where
  | joined {dates times : List Char} {moment : LocalDateTime}
      (is_date : IsDate dates moment.date) (is_time : IsTime seconds times moment.time) :
      IsDateTime seconds (dates ++ 'T' :: times) moment

/-- The offsets: `Z`, or a sign, two digits of the hours and two of the minutes. -/
inductive IsOffset : List Char → Offset → Prop where
  | zulu : IsOffset ['Z'] zeroOffset
  | signed {sign : Char} {hours minutes : List Char} {offset : Offset}
      (sign_eq : sign = if offset.behind then '-' else '+')
      (hours_writes : Writes 2 hours offset.hours)
      (minutes_writes : Writes 2 minutes offset.minutes) :
      IsOffset (sign :: hours ++ ':' :: minutes) offset

/-- The instants: a date and time with seconds, and an offset. Clocks with this offset show that
date and time at the instant. -/
inductive IsInstant : List Char → Instant → Prop where
  | located {moments offsets : List Char} {moment : LocalDateTime} {offset : Offset}
      {instant : Instant} (is_moment : IsDateTime true moments moment)
      (is_offset : IsOffset offsets offset) (shows : instant.Shows offset moment) :
      IsInstant (moments ++ offsets) instant

theorem date?_eq_some_iff {chars : List Char} {date : Date} :
    date? chars = some date ↔ IsDate chars date := by
  constructor
  · intro read
    unfold date? at read
    split at read
    · simp only [Option.bind_eq_bind, Option.bind_eq_some_iff, Digits.read?_eq_some_iff,
        Date.of?_eq_some_iff] at read
      obtain ⟨year, yearWrites, month, monthWrites, day, dayWrites, yearEq, rfl, rfl⟩ := read
      exact .dashed yearWrites yearEq monthWrites dayWrites
    · exact absurd read nofun
  · rintro ⟨yearWrites, yearEq, monthWrites, dayWrites⟩
    obtain ⟨y₁, y₂, y₃, y₄, rfl⟩ := List.length_eq_four.mp yearWrites.length
    obtain ⟨m₁, m₂, rfl⟩ := List.length_eq_two.mp monthWrites.length
    obtain ⟨d₁, d₂, rfl⟩ := List.length_eq_two.mp dayWrites.length
    simp only [List.cons_append, List.nil_append, date?, yearWrites.read?_eq,
      monthWrites.read?_eq, dayWrites.read?_eq, Option.bind_eq_bind, Option.bind_some,
      Date.of?_eq_some_iff, yearEq, and_self]

theorem fraction?_eq_some_iff {chars : List Char} {nano : Nat} :
    fraction? chars = some nano ↔ IsFraction chars nano := by
  constructor
  · intro read
    unfold fraction? at read
    split at read
    · obtain rfl := Option.some.inj read
      exact .absent
    · next run =>
        split at read
        · next few =>
            obtain ⟨n, writes, rfl⟩ := Option.map_eq_some_iff.mp read
            exact .point few.1 few.2 (Digits.read?_eq_some_iff.mp writes)
        · exact absurd read nofun
    · exact absurd read nofun
  · rintro (_ | ⟨some, few, writes⟩)
    · rfl
    · next width n run =>
        obtain rfl := writes.length
        simp only [fraction?, some, few, and_self, ↓reduceIte, writes.read?_eq, Option.map_some,
          Nat.pow_eq]

theorem seconds?_eq_some_iff {chars : List Char} {second nano : Nat} :
    seconds? chars = some (second, nano) ↔ ∃ precise, IsSeconds precise chars second nano := by
  constructor
  · intro read
    unfold seconds? at read
    split at read
    · obtain ⟨rfl, rfl⟩ := Prod.mk.inj (Option.some.inj read)
      exact ⟨false, .omitted⟩
    · next s₁ s₂ fraction =>
        simp only [Option.bind_eq_bind, Option.bind_eq_some_iff, Digits.read?_eq_some_iff,
          fraction?_eq_some_iff] at read
        obtain ⟨read, secondWrites, part, isFraction, rest⟩ := read
        split at rest
        · next below =>
            obtain ⟨rfl, rfl⟩ := Prod.mk.inj (Option.some.inj rest)
            exact ⟨true, .written secondWrites (Nat.le_of_lt_succ below) isFraction⟩
        · exact absurd rest nofun
    · exact absurd read nofun
  · rintro ⟨precise, _ | ⟨secondWrites, below, isFraction⟩⟩
    · rfl
    · obtain ⟨s₁, s₂, rfl⟩ := List.length_eq_two.mp secondWrites.length
      have inMinute : second < 60 := Nat.lt_succ_of_le below
      simp only [List.cons_append, List.nil_append, seconds?, secondWrites.read?_eq,
        fraction?_eq_some_iff.mpr isFraction, Option.bind_eq_bind, Option.bind_some, inMinute,
        ↓reduceIte]

theorem time?_eq_some_iff {chars : List Char} {time : Time} :
    time? chars = some time ↔ ∃ precise, IsTime precise chars time := by
  constructor
  · intro read
    unfold time? at read
    split at read
    · simp only [Option.bind_eq_bind, Option.bind_eq_some_iff, Digits.read?_eq_some_iff,
        Prod.exists, seconds?_eq_some_iff, Time.of?_eq_some_iff] at read
      obtain ⟨hour, hourWrites, minute, minuteWrites, second, nano, ⟨precise, isSeconds⟩, rfl, rfl,
        rfl, rfl⟩ := read
      exact ⟨precise, .clock hourWrites minuteWrites isSeconds⟩
    · exact absurd read nofun
  · rintro ⟨precise, hourWrites, minuteWrites, isSeconds⟩
    obtain ⟨h₁, h₂, rfl⟩ := List.length_eq_two.mp hourWrites.length
    obtain ⟨m₁, m₂, rfl⟩ := List.length_eq_two.mp minuteWrites.length
    simp only [List.cons_append, List.nil_append, time?, hourWrites.read?_eq,
      minuteWrites.read?_eq, seconds?_eq_some_iff.mpr ⟨precise, isSeconds⟩, Option.bind_eq_bind,
      Option.bind_some, time.of?_self]

theorem IsDate.length_eq {chars : List Char} {date : Date} (isDate : IsDate chars date) :
    chars.length = 10 := by
  obtain ⟨yearWrites, -, monthWrites, dayWrites⟩ := isDate
  simp only [List.length_append, List.length_cons, yearWrites.length, monthWrites.length,
    dayWrites.length]

theorem dateTime?_eq_some_iff {chars : List Char} {moment : LocalDateTime} :
    dateTime? chars = some moment ↔ ∃ precise, IsDateTime precise chars moment := by
  constructor
  · intro read
    unfold dateTime? at read
    split at read
    · next times rest =>
        simp only [Option.bind_eq_bind, Option.bind_eq_some_iff, date?_eq_some_iff,
          time?_eq_some_iff, Option.some.injEq] at read
        obtain ⟨date, isDate, time, ⟨precise, isTime⟩, rfl⟩ := read
        rw [← List.take_append_drop 10 chars, rest]
        exact ⟨precise, .joined isDate isTime⟩
    · exact absurd read nofun
  · rintro ⟨precise, isDate, isTime⟩
    have front := isDate.length_eq
    simp only [dateTime?, List.drop_left' front, List.take_left' front,
      date?_eq_some_iff.mpr isDate, time?_eq_some_iff.mpr ⟨precise, isTime⟩, Option.bind_eq_bind,
      Option.bind_some]

theorem offset?_eq_some_iff {chars : List Char} {offset : Offset} :
    offset? chars = some offset ↔ IsOffset chars offset ∧ chars ≠ ['Z'] := by
  constructor
  · intro read
    unfold offset? at read
    split at read
    · next sign h₁ h₂ m₁ m₂ =>
        simp only [Option.bind_eq_bind, Option.bind_eq_some_iff, Digits.read?_eq_some_iff] at read
        obtain ⟨hours, hoursWrites, minutes, minutesWrites, read⟩ := read
        split at read
        · next signed =>
            have isOffset : IsOffset (sign :: [h₁, h₂] ++ ':' :: [m₁, m₂]) offset := by
              obtain rfl := Option.some.inj read
              refine .signed ?_ hoursWrites minutesWrites
              rcases signed.1 with rfl | rfl <;> rfl
            exact ⟨isOffset, nofun⟩
        · exact absurd read nofun
    · exact absurd read nofun
  · rintro ⟨_ | ⟨rfl, hoursWrites, minutesWrites⟩, notZulu⟩
    · exact absurd rfl notZulu
    · obtain ⟨h₁, h₂, rfl⟩ := List.length_eq_two.mp hoursWrites.length
      obtain ⟨m₁, m₂, rfl⟩ := List.length_eq_two.mp minutesWrites.length
      obtain ⟨behind, hours, minutes, hoursBelow, minutesBelow⟩ := offset
      simp only [List.cons_append, List.nil_append, offset?, hoursWrites.read?_eq,
        minutesWrites.read?_eq, Option.bind_eq_bind, Option.bind_some]
      cases behind <;> simp [hoursBelow, minutesBelow]

theorem IsOffset.length_eq {chars : List Char} {offset : Offset} (isOffset : IsOffset chars offset)
    (signed : chars ≠ ['Z']) : chars.length = 6 := by
  cases isOffset with
  | zulu => exact absurd rfl signed
  | signed _ hoursWrites minutesWrites =>
      simp only [List.length_append, List.length_cons, hoursWrites.length, minutesWrites.length]

theorem IsOffset.getLast?_ne {chars : List Char} {offset : Offset}
    (isOffset : IsOffset chars offset) (signed : chars ≠ ['Z']) (front : List Char) :
    (front ++ chars).getLast? ≠ some 'Z' := by
  cases isOffset with
  | zulu => exact absurd rfl signed
  | signed _ hoursWrites minutesWrites =>
      obtain ⟨m₁, m₂, rfl⟩ := List.length_eq_two.mp minutesWrites.length
      have isDigit : m₂.isDigit = true := minutesWrites.digits m₂ (by simp)
      intro last
      simp only [List.getLast?_append, List.getLast?_cons_cons, List.getLast?_singleton,
        Option.some_or, Option.some.injEq] at last
      exact absurd (last ▸ isDigit) (by decide)

theorem splitOffset?_eq_some_iff {chars front : List Char} {offset : Offset} :
    splitOffset? chars = some (front, offset) ↔
      ∃ written, IsOffset written offset ∧ chars = front ++ written := by
  constructor
  · intro found
    unfold splitOffset? at found
    split at found
    · next zulu =>
        obtain ⟨rfl, rfl⟩ := Prod.mk.inj (Option.some.inj found)
        exact ⟨['Z'], .zulu, (List.dropLast_append_getLast? 'Z' zulu).symm⟩
    · obtain ⟨_, read, pair⟩ := Option.map_eq_some_iff.mp found
      obtain ⟨rfl, rfl⟩ := Prod.mk.inj pair
      exact ⟨_, (offset?_eq_some_iff.mp read).1, (List.take_append_drop _ chars).symm⟩
  · rintro ⟨written, isOffset, rfl⟩
    by_cases zulu : written = ['Z']
    · subst zulu
      obtain rfl : offset = zeroOffset := by
        generalize same : ['Z'] = written at isOffset
        cases isOffset with
        | zulu => rfl
        | signed _ _ minutesWrites => exact absurd (congrArg List.length same) (by simp)
      rw [splitOffset?, if_pos (by simp), List.dropLast_concat]
    · have front_length : (front ++ written).length - 6 = front.length := by
        rw [List.length_append, isOffset.length_eq zulu, Nat.add_sub_cancel]
      rw [splitOffset?, if_neg (isOffset.getLast?_ne zulu front), front_length, List.drop_left,
        List.take_left, offset?_eq_some_iff.mpr ⟨isOffset, zulu⟩, Option.map_some]

theorem IsSeconds.precise_iff {precise : Bool} {chars : List Char} {second nano : Nat}
    (isSeconds : IsSeconds precise chars second nano) : precise = true ↔ 3 ≤ chars.length := by
  cases isSeconds with
  | omitted => exact iff_of_false nofun nofun
  | written secondWrites _ _ =>
      rw [List.length_append, List.length_cons, secondWrites.length]
      exact iff_of_true rfl (Nat.le_add_right 3 _)

/-- The seconds of a date and time are written exactly if it reaches the length that is asked of an
instant. -/
theorem IsDateTime.precise_iff {precise : Bool} {chars : List Char} {moment : LocalDateTime}
    (isDateTime : IsDateTime precise chars moment) :
    precise = true ↔ secondsEnd ≤ chars.length := by
  obtain ⟨isDate, hourWrites, minuteWrites, isSeconds⟩ := isDateTime
  simp only [isSeconds.precise_iff, secondsEnd, List.length_append, List.length_cons,
    isDate.length_eq, hourWrites.length, minuteWrites.length]
  omega

theorem instant?_eq_some_iff {chars : List Char} {instant : Instant} :
    instant? chars = some instant ↔ IsInstant chars instant := by
  constructor
  · intro read
    unfold instant? at read
    simp only [Option.bind_eq_bind, Option.bind_eq_some_iff, Prod.exists,
      splitOffset?_eq_some_iff] at read
    obtain ⟨front, offset, ⟨written, isOffset, rfl⟩, read⟩ := read
    split at read
    · next long =>
        obtain ⟨moment, found, same⟩ := Option.bind_eq_some_iff.mp read
        obtain ⟨precise, isMoment⟩ := dateTime?_eq_some_iff.mp found
        obtain rfl := isMoment.precise_iff.mpr long
        exact .located isMoment isOffset (Instant.shows_iff.mpr (Option.some.inj same).symm)
    · exact absurd read nofun
  · rintro ⟨isMoment, isOffset, shows⟩
    rw [instant?, splitOffset?_eq_some_iff.mpr ⟨_, isOffset, rfl⟩, Option.bind_eq_bind,
      Option.bind_some]
    dsimp only
    rw [if_pos (isMoment.precise_iff.mp rfl), dateTime?_eq_some_iff.mpr ⟨true, isMoment⟩,
      Option.bind_eq_bind, Option.bind_some, Instant.shows_iff.mp shows]

end Iso

end RowQuery
