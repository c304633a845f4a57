import RowQuery.Proofs.Calendar.Layouts

/-! # No text has two layouts

The layouts are told apart by their characters: a date has a dash and no `T`, a time consists of
digits, colons and points, and a date and time has a `T`, after which an instant goes on with a
character that no time has.
-/

namespace RowQuery.Iso

variable {precise : Bool} {chars : List Char} {date : Date} {time : Time} {moment : LocalDateTime}
  {instant : Instant}

/-- The characters of times: digits, colons and points. -/
def isClockChar (c : Char) : Bool :=
  c.isDigit || c = ':' || c = '.'

theorem isClockChar_of_isDigit {c : Char} (isDigit : c.isDigit = true) : isClockChar c = true := by
  rw [isClockChar, isDigit, Bool.true_or, Bool.true_or]

theorem IsFraction.isClockChar {nano : Nat} (isFraction : IsFraction chars nano) :
    ∀ c ∈ chars, isClockChar c = true := by
  cases isFraction with
  | absent => exact List.forall_mem_nil _
  | point _ _ writes =>
      rw [List.forall_mem_cons]
      exact ⟨rfl, fun c member => isClockChar_of_isDigit (writes.digits c member)⟩

theorem IsSeconds.isClockChar {second nano : Nat}
    (isSeconds : IsSeconds precise chars second nano) : ∀ c ∈ chars, isClockChar c = true := by
  cases isSeconds with
  | omitted => exact List.forall_mem_nil _
  | written writes _ isFraction =>
      rw [List.forall_mem_append, List.forall_mem_cons]
      exact ⟨⟨rfl, fun c member => isClockChar_of_isDigit (writes.digits c member)⟩,
        isFraction.isClockChar⟩

theorem IsTime.isClockChar (isTime : IsTime precise chars time) :
    ∀ c ∈ chars, isClockChar c = true := by
  obtain ⟨hourWrites, minuteWrites, isSeconds⟩ := isTime
  rw [List.forall_mem_append, List.forall_mem_append, List.forall_mem_cons]
  exact ⟨⟨fun c member => isClockChar_of_isDigit (hourWrites.digits c member), rfl,
    fun c member => isClockChar_of_isDigit (minuteWrites.digits c member)⟩, isSeconds.isClockChar⟩

theorem IsDate.dash_mem (isDate : IsDate chars date) : '-' ∈ chars := by
  obtain ⟨-, -, -, -⟩ := isDate
  simp

theorem IsDate.t_not_mem (isDate : IsDate chars date) : 'T' ∉ chars := by
  obtain ⟨yearWrites, -, monthWrites, dayWrites⟩ := isDate
  have year : 'T' ∉ _ := fun member => absurd (yearWrites.digits 'T' member) (by decide)
  have month : 'T' ∉ _ := fun member => absurd (monthWrites.digits 'T' member) (by decide)
  have day : 'T' ∉ _ := fun member => absurd (dayWrites.digits 'T' member) (by decide)
  simp [year, month, day]

theorem IsDateTime.t_mem (isDateTime : IsDateTime precise chars moment) : 'T' ∈ chars := by
  obtain ⟨-, -⟩ := isDateTime
  simp

theorem IsInstant.t_mem (isInstant : IsInstant chars instant) : 'T' ∈ chars := by
  obtain ⟨isMoment, -, -⟩ := isInstant
  exact List.mem_append_left _ isMoment.t_mem

/-- After its `T`, a date and time has only characters of times. -/
theorem IsDateTime.isClockChar (isDateTime : IsDateTime precise chars moment) :
    ∀ c ∈ chars.drop 11, Iso.isClockChar c = true := by
  obtain ⟨isDate, isTime⟩ := isDateTime
  rw [← List.drop_drop (i := 1), List.drop_left' isDate.length_eq, List.drop_one, List.tail_cons]
  exact isTime.isClockChar

theorem IsOffset.exists_not_isClockChar {offset : Offset} (isOffset : IsOffset chars offset) :
    ∃ c ∈ chars, Iso.isClockChar c = false := by
  cases isOffset with
  | zulu => exact ⟨'Z', by decide, by decide⟩
  | @signed sign _ _ _ sign_eq _ _ =>
      refine ⟨sign, List.mem_append_left _ List.mem_cons_self, ?_⟩
      rw [sign_eq]
      split <;> decide

theorem IsInstant.exists_not_isClockChar (isInstant : IsInstant chars instant) :
    ∃ c ∈ chars.drop 11, Iso.isClockChar c = false := by
  obtain ⟨isMoment, isOffset, -⟩ := isInstant
  obtain ⟨c, member, other⟩ := isOffset.exists_not_isClockChar
  -- The seconds are written, so the offset begins behind the eleventh character.
  have long : 11 ≤ _ := Nat.le_trans (by decide) (isMoment.precise_iff.mp rfl)
  refine ⟨c, ?_, other⟩
  rw [List.drop_append_of_le_length long]
  exact List.mem_append_right _ member

/-! ### One layout at most -/

theorem IsTime.not_mem {c : Char} (isTime : IsTime precise chars time)
    (other : Iso.isClockChar c = false) : c ∉ chars := by
  intro member
  have clock := isTime.isClockChar c member
  rw [other] at clock
  exact Bool.false_ne_true clock

theorem IsDate.not_isTime (isDate : IsDate chars date) : ¬ IsTime precise chars time :=
  fun isTime => isTime.not_mem (by decide) isDate.dash_mem

theorem IsDateTime.not_isDate (isDateTime : IsDateTime precise chars moment) :
    ¬ IsDate chars date :=
  fun isDate => isDate.t_not_mem isDateTime.t_mem

theorem IsDateTime.not_isTime {other : Bool} (isDateTime : IsDateTime precise chars moment) :
    ¬ IsTime other chars time :=
  fun isTime => isTime.not_mem (by decide) isDateTime.t_mem

theorem IsInstant.not_isDate (isInstant : IsInstant chars instant) : ¬ IsDate chars date :=
  fun isDate => isDate.t_not_mem isInstant.t_mem

theorem IsInstant.not_isTime (isInstant : IsInstant chars instant) :
    ¬ IsTime precise chars time :=
  fun isTime => isTime.not_mem (by decide) isInstant.t_mem

theorem IsInstant.not_isDateTime (isInstant : IsInstant chars instant) :
    ¬ IsDateTime precise chars moment := by
  intro isDateTime
  obtain ⟨c, member, other⟩ := isInstant.exists_not_isClockChar
  have clock := isDateTime.isClockChar c member
  rw [other] at clock
  exact Bool.false_ne_true clock

end RowQuery.Iso
