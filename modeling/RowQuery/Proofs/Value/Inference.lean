import RowQuery.Proofs.Calendar.Exclusion
import RowQuery.Value.Conversion
import Mathlib.Data.List.Pairwise

/-! # The value of a text

A text is probed for one layout after the other. At most one of the probes succeeds, so that the
order does not matter, and the value is the one that the layout of the text gives it:
`RowQuery.Value.infer_layouts`.
-/

namespace RowQuery.Value

variable {chars : List Char} {written : String} {value other : Value}

/-- The readers of the four layouts, in the order in which a text is probed. -/
def probes : List (List Char → Option Value) :=
  [fun chars => (Iso.instant? chars).map .instant,
    fun chars => (Iso.dateTime? chars).map .localDateTime,
    fun chars => (Iso.date? chars).map .localDate,
    fun chars => (Iso.time? chars).map .localTime]

/-- The value of the first probe that succeeds on a text, else the text itself. -/
def inferBy (order : List (List Char → Option Value)) (written : String) : Value :=
  (order.findSome? fun probe => probe written.toList).getD (.text written)

theorem infer_eq_inferBy (written : String) : infer written = inferBy probes written := by
  simp only [infer, inferBy, probes, List.findSome?_cons, List.findSome?_nil]
  cases Iso.instant? written.toList <;> cases Iso.dateTime? written.toList <;>
    cases Iso.date? written.toList <;> cases Iso.time? written.toList <;> rfl

/-- The value that a layout gives to a text. -/
inductive Denotes (chars : List Char) : Value → Prop where
  | instant {point : Instant} (is_instant : Iso.IsInstant chars point) :
      Denotes chars (.instant point)
  | localDateTime {precise : Bool} {moment : LocalDateTime}
      (is_date_time : Iso.IsDateTime precise chars moment) : Denotes chars (.localDateTime moment)
  | localDate {date : Date} (is_date : Iso.IsDate chars date) : Denotes chars (.localDate date)
  | localTime {precise : Bool} {time : Time} (is_time : Iso.IsTime precise chars time) :
      Denotes chars (.localTime time)

theorem exists_probe_iff : (∃ probe ∈ probes, probe chars = some value) ↔ Denotes chars value := by
  simp only [probes, List.mem_cons, List.not_mem_nil, or_false, exists_eq_or_imp, exists_eq_left,
    Option.map_eq_some_iff, Iso.instant?_eq_some_iff, Iso.dateTime?_eq_some_iff,
    Iso.date?_eq_some_iff, Iso.time?_eq_some_iff]
  constructor
  · rintro (⟨_, isInstant, rfl⟩ | ⟨_, ⟨_, isDateTime⟩, rfl⟩ | ⟨_, isDate, rfl⟩ |
      ⟨_, ⟨_, isTime⟩, rfl⟩)
    · exact .instant isInstant
    · exact .localDateTime isDateTime
    · exact .localDate isDate
    · exact .localTime isTime
  · rintro (isInstant | isDateTime | isDate | isTime)
    · exact .inl ⟨_, isInstant, rfl⟩
    · exact .inr (.inl ⟨_, ⟨_, isDateTime⟩, rfl⟩)
    · exact .inr (.inr (.inl ⟨_, isDate, rfl⟩))
    · exact .inr (.inr (.inr ⟨_, ⟨_, isTime⟩, rfl⟩))

/-- At most one of two probes succeeds on a text. -/
def Exclusive (chars : List Char) (first second : List Char → Option Value) : Prop :=
  first chars = none ∨ second chars = none

instance : Std.Symm (Exclusive chars) where
  symm _ _ := Or.symm

theorem exclusive_of_readers {α β : Type} {first : List Char → Option α}
    {second : List Char → Option β} {firstValue : α → Value} {secondValue : β → Value}
    (never : ∀ a b, first chars = some a → second chars ≠ some b) :
    Exclusive chars (fun chars => (first chars).map firstValue)
      (fun chars => (second chars).map secondValue) := by
  unfold Exclusive
  rw [Option.map_eq_none_iff, Option.map_eq_none_iff]
  cases read : first chars with
  | none => exact .inl rfl
  | some a => exact .inr (Option.eq_none_iff_forall_ne_some.mpr fun b => never a b read)

/-- No text satisfies two probes. -/
theorem probes_exclusive (chars : List Char) : probes.Pairwise (Exclusive chars) := by
  simp only [probes, List.pairwise_cons, List.forall_mem_cons, List.not_mem_nil,
    false_implies, implies_true, and_true, List.Pairwise.nil]
  refine ⟨⟨?_, ?_, ?_⟩, ⟨?_, ?_⟩, ?_⟩ <;> apply exclusive_of_readers <;>
    simp only [ne_eq, Iso.instant?_eq_some_iff, Iso.dateTime?_eq_some_iff, Iso.date?_eq_some_iff,
      Iso.time?_eq_some_iff, not_exists]
  · exact fun _ _ isInstant _ => isInstant.not_isDateTime
  · exact fun _ _ isInstant => isInstant.not_isDate
  · exact fun _ _ isInstant _ => isInstant.not_isTime
  · rintro _ _ ⟨_, isDateTime⟩
    exact isDateTime.not_isDate
  · rintro _ _ ⟨_, isDateTime⟩ _
    exact isDateTime.not_isTime
  · exact fun _ _ isDate _ => isDate.not_isTime

theorem Denotes.unique (first : Denotes chars value) (second : Denotes chars other) :
    value = other := by
  obtain ⟨firstProbe, firstMember, firstRead⟩ := exists_probe_iff.mpr first
  obtain ⟨secondProbe, secondMember, secondRead⟩ := exists_probe_iff.mpr second
  by_cases same : firstProbe = secondProbe
  · rw [same, secondRead] at firstRead
    exact (Option.some.inj firstRead).symm
  · have exclusive : Exclusive chars firstProbe secondProbe :=
      (probes_exclusive chars).forall firstMember secondMember same
    rcases exclusive with none | none
    · exact absurd (none.symm.trans firstRead) nofun
    · exact absurd (none.symm.trans secondRead) nofun

/-- The value of a text is the one that a layout gives it, or else the text; the order of the probes
does not matter. -/
theorem inferBy_eq_iff {order : List (List Char → Option Value)} (reordered : order.Perm probes) :
    inferBy order written = value ↔
      Denotes written.toList value ∨
        value = .text written ∧ ∀ other, ¬ Denotes written.toList other := by
  unfold inferBy
  cases found : order.findSome? fun probe => probe written.toList with
  | some first =>
      obtain ⟨probe, member, read⟩ := List.exists_of_findSome?_eq_some found
      have denoted := exists_probe_iff.mp ⟨probe, reordered.mem_iff.mp member, read⟩
      rw [Option.getD_some]
      constructor
      · rintro rfl
        exact .inl denoted
      · rintro (denotes | ⟨-, never⟩)
        · exact denoted.unique denotes
        · exact absurd denoted (never first)
  | none =>
      have never : ∀ other, ¬ Denotes written.toList other := by
        intro other denotes
        obtain ⟨probe, member, read⟩ := exists_probe_iff.mpr denotes
        have missed := List.findSome?_eq_none_iff.mp found probe (reordered.mem_iff.mpr member)
        exact absurd (missed.symm.trans read) nofun
      rw [Option.getD_none]
      constructor
      · rintro rfl
        exact .inr ⟨rfl, never⟩
      · rintro (denotes | ⟨rfl, -⟩)
        · exact absurd denotes (never value)
        · rfl

theorem infer_eq_iff : infer written = value ↔
    Denotes written.toList value ∨
      value = .text written ∧ ∀ other, ¬ Denotes written.toList other := by
  rw [infer_eq_inferBy, inferBy_eq_iff (List.Perm.refl probes)]

/-! ### The value in each layout -/

theorem infer_eq_instant_iff {point : Instant} :
    infer written = .instant point ↔ Iso.IsInstant written.toList point := by
  rw [infer_eq_iff]
  constructor
  · rintro (denotes | ⟨plain, -⟩)
    · cases denotes with
      | instant isInstant => exact isInstant
    · cases plain
  · exact fun isInstant => .inl (.instant isInstant)

theorem infer_eq_localDateTime_iff {moment : LocalDateTime} :
    infer written = .localDateTime moment ↔
      ∃ precise, Iso.IsDateTime precise written.toList moment := by
  rw [infer_eq_iff]
  constructor
  · rintro (denotes | ⟨plain, -⟩)
    · cases denotes with
      | localDateTime isDateTime => exact ⟨_, isDateTime⟩
    · cases plain
  · exact fun ⟨_, isDateTime⟩ => .inl (.localDateTime isDateTime)

theorem infer_eq_localDate_iff {date : Date} :
    infer written = .localDate date ↔ Iso.IsDate written.toList date := by
  rw [infer_eq_iff]
  constructor
  · rintro (denotes | ⟨plain, -⟩)
    · cases denotes with
      | localDate isDate => exact isDate
    · cases plain
  · exact fun isDate => .inl (.localDate isDate)

theorem infer_eq_localTime_iff {time : Time} :
    infer written = .localTime time ↔ ∃ precise, Iso.IsTime precise written.toList time := by
  rw [infer_eq_iff]
  constructor
  · rintro (denotes | ⟨plain, -⟩)
    · cases denotes with
      | localTime isTime => exact ⟨_, isTime⟩
    · cases plain
  · exact fun ⟨_, isTime⟩ => .inl (.localTime isTime)

theorem infer_eq_text_iff :
    infer written = .text written ↔ ∀ value, ¬ Denotes written.toList value := by
  rw [infer_eq_iff]
  constructor
  · rintro (denotes | ⟨-, never⟩)
    · cases denotes
    · exact never
  · exact fun never => .inr ⟨rfl, never⟩

/-- **The values of texts.** A text is a date, a time, a date and time or an instant exactly if it
is written in that layout, and it stays a text exactly if it is written in none. No text satisfies
two probes, and probing in any other order gives the same value. -/
theorem infer_layouts (written : String) :
    (∀ date, infer written = .localDate date ↔ Iso.IsDate written.toList date) ∧
    (∀ time, infer written = .localTime time ↔
      ∃ precise, Iso.IsTime precise written.toList time) ∧
    (∀ moment, infer written = .localDateTime moment ↔
      ∃ precise, Iso.IsDateTime precise written.toList moment) ∧
    (∀ point, infer written = .instant point ↔ Iso.IsInstant written.toList point) ∧
    (infer written = .text written ↔ ∀ value, ¬ Denotes written.toList value) ∧
    probes.Pairwise (Exclusive written.toList) ∧
    ∀ order, order.Perm probes → inferBy order written = infer written := by
  refine ⟨fun _ => infer_eq_localDate_iff, fun _ => infer_eq_localTime_iff,
    fun _ => infer_eq_localDateTime_iff, fun _ => infer_eq_instant_iff, infer_eq_text_iff,
    probes_exclusive written.toList, ?_⟩
  intro order reordered
  rw [inferBy_eq_iff reordered, ← infer_eq_iff]

theorem infer_late_evening : probes.reverse.Perm probes ∧
    inferBy probes.reverse "2012-04-23T23:25:43-02:00" = infer "2012-04-23T23:25:43-02:00" ∧
    (infer "2012-04-23T23:25:43-02:00").kind = .instant :=
  have reversed := List.reverse_perm probes
  ⟨reversed, (infer_layouts "2012-04-23T23:25:43-02:00").2.2.2.2.2.2 _ reversed, by decide⟩

end RowQuery.Value
