import RowQuery.Proofs.Calendar.Canonical

/-! # The text of a date, a time and an instant

The canonical text of a value is in the layout of its type and writes the value
(`RowQuery.Instant.isInstant_chars_iff`), with two exceptions: no layout writes a leap second, and
the text of a year outside 0 to 9999 starts with a sign, with which no layout starts.
-/

namespace RowQuery

open Digits Iso

namespace Iso

variable {chars : List Char}

/-- A year of at most four digits has no sign. -/
theorem RendersYear.writes {year : Int} (renders : RendersYear chars year)
    (near : 0 ≤ year ∧ year ≤ 9999) : ∃ n : Nat, year = n ∧ Writes 4 chars n := by
  rcases renders with writes | ⟨far, -, -, -, -⟩
  · exact ⟨_, rfl, writes⟩
  · exact absurd near far

theorem RendersFraction.isFraction {nano : Nat} (renders : RendersFraction chars nano) :
    IsFraction chars nano := by
  rcases renders with _ | ⟨some_group, few_groups, writes, -⟩
  · exact .absent
  · exact .point (by omega) (by omega) writes

theorem RendersTime.isTime {time : Time} (renders : RendersTime chars time)
    (noLeap : time.second ≤ 59) : IsTime true chars time := by
  obtain ⟨hour, minute, second, fraction⟩ := renders
  have written := IsTime.clock hour minute (.written second noLeap fraction.isFraction)
  rwa [← List.append_assoc] at written

end Iso

namespace Date

variable {chars : List Char} {date : Date}

/-- Whether the year has at most four digits. -/
def FourDigits (date : Date) : Prop :=
  0 ≤ date.year ∧ date.year ≤ 9999

theorem fourDigits_of_isDate (isDate : IsDate chars date) : date.FourDigits := by
  obtain ⟨yearWrites, yearEq, -, -⟩ := isDate
  have few := (writes_iff.mp yearWrites).1
  rw [FourDigits, yearEq]
  omega

/-- A date is written in one way only, which is canonical. -/
theorem isDate_iff : IsDate chars date ↔ date.FourDigits ∧ chars = date.chars := by
  rw [← rendersDate_iff]
  constructor
  · intro isDate
    have fourDigits := fourDigits_of_isDate isDate
    obtain ⟨yearWrites, yearEq, monthWrites, dayWrites⟩ := isDate
    have year := RendersYear.digits yearWrites
    rw [← yearEq] at year
    exact ⟨fourDigits, .dashed year monthWrites dayWrites⟩
  · rintro ⟨fourDigits, year, month, day⟩
    obtain ⟨n, yearEq, yearWrites⟩ := year.writes fourDigits
    exact .dashed yearWrites yearEq month day

theorem head_of_isDate (isDate : IsDate chars date) : ∃ c ∈ chars.head?, c.isDigit = true := by
  obtain ⟨yearWrites, -, -, -⟩ := isDate
  obtain ⟨y₁, y₂, y₃, y₄, rfl⟩ := List.length_eq_four.mp yearWrites.length
  exact ⟨y₁, rfl, yearWrites.digits y₁ List.mem_cons_self⟩

theorem head_of_not_fourDigits (many : ¬ date.FourDigits) :
    ∃ sign, date.chars.head? = some sign ∧ sign.isDigit = false := by
  have signed : ¬ (0 ≤ date.year ∧ date.year ≤ 9999) := many
  rw [Date.chars, yearText, if_neg signed]
  refine ⟨_, rfl, ?_⟩
  split <;> rfl

end Date

namespace Time

variable {precise : Bool} {chars : List Char} {time : Time}

theorem isTime_chars (noLeap : time.second ≤ 59) : IsTime true time.chars time :=
  (rendersTime_iff.mpr rfl).isTime noLeap

theorem second_le_of_isSeconds {second nano : Nat}
    (isSeconds : IsSeconds precise chars second nano) : second ≤ 59 := by
  cases isSeconds with
  | omitted => exact Nat.zero_le 59
  | written _ below _ => exact below

theorem second_le_of_isTime (isTime : IsTime precise chars time) : time.second ≤ 59 := by
  obtain ⟨-, -, isSeconds⟩ := isTime
  exact second_le_of_isSeconds isSeconds

theorem isTime_chars_iff : (∃ precise, IsTime precise time.chars time) ↔ time.second ≤ 59 :=
  ⟨fun ⟨_, isTime⟩ => second_le_of_isTime isTime, fun noLeap => ⟨true, isTime_chars noLeap⟩⟩

end Time

namespace LocalDateTime

variable {precise : Bool} {chars : List Char} {moment : LocalDateTime}

/-- Whether a date and time has a text in the layout. -/
def Writable (moment : LocalDateTime) : Prop :=
  moment.date.FourDigits ∧ moment.time.second ≤ 59

theorem isDateTime_chars (writable : moment.Writable) : IsDateTime true moment.chars moment :=
  .joined (Date.isDate_iff.mpr ⟨writable.1, rfl⟩) (Time.isTime_chars writable.2)

theorem writable_of_isDateTime (isDateTime : IsDateTime precise chars moment) :
    moment.Writable := by
  obtain ⟨isDate, isTime⟩ := isDateTime
  exact ⟨Date.fourDigits_of_isDate isDate, Time.second_le_of_isTime isTime⟩

theorem head_of_isDateTime (isDateTime : IsDateTime precise chars moment) :
    ∃ c ∈ chars.head?, c.isDigit = true := by
  obtain ⟨isDate, -⟩ := isDateTime
  obtain ⟨c, head, isDigit⟩ := Date.head_of_isDate isDate
  exact ⟨c, List.mem_head?_append_of_mem_head? head, isDigit⟩

theorem isDateTime_chars_iff :
    (∃ precise, IsDateTime precise moment.chars moment) ↔ moment.Writable :=
  ⟨fun ⟨_, isDateTime⟩ => writable_of_isDateTime isDateTime,
    fun writable => ⟨true, isDateTime_chars writable⟩⟩

end LocalDateTime

namespace Instant

variable {chars : List Char} {instant : Instant}

theorem isInstant_chars (writable : instant.utc.Writable) : IsInstant instant.chars instant :=
  .located (LocalDateTime.isDateTime_chars writable) .zulu (shows_zeroOffset_iff.mpr rfl)

theorem second_le_of_isInstant (isInstant : IsInstant chars instant) :
    instant.utc.time.second ≤ 59 := by
  obtain ⟨isMoment, -, shows⟩ := isInstant
  rw [shows.second]
  exact (LocalDateTime.writable_of_isDateTime isMoment).2

theorem head_of_isInstant (isInstant : IsInstant chars instant) :
    ∃ c ∈ chars.head?, c.isDigit = true := by
  obtain ⟨isMoment, -, -⟩ := isInstant
  obtain ⟨c, head, isDigit⟩ := LocalDateTime.head_of_isDateTime isMoment
  exact ⟨c, List.mem_head?_append_of_mem_head? head, isDigit⟩

theorem fourDigits_of_isInstant_chars (isInstant : IsInstant instant.chars instant) :
    instant.utc.date.FourDigits := by
  -- The text of any other year starts with a sign.
  by_contra many
  obtain ⟨sign, head, notDigit⟩ := Date.head_of_not_fourDigits many
  have signFirst : instant.chars.head? = some sign := by
    rw [Instant.chars, LocalDateTime.chars, List.head?_append, List.head?_append, head,
      Option.some_or, Option.some_or]
  obtain ⟨c, first, isDigit⟩ := head_of_isInstant isInstant
  obtain rfl := Option.some.inj (signFirst.symm.trans first)
  exact Bool.false_ne_true (notDigit.symm.trans isDigit)

/-- The text of an instant in UTC is read back exactly if its year has at most four digits and it is
no leap second. -/
theorem isInstant_chars_iff : IsInstant instant.chars instant ↔ instant.utc.Writable :=
  ⟨fun isInstant => ⟨fourDigits_of_isInstant_chars isInstant, second_le_of_isInstant isInstant⟩,
    isInstant_chars⟩

end Instant

end RowQuery
