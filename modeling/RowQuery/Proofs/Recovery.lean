import Mathlib.Logic.Basic

/-! # Recovering what was written

A reading recovers what was written if it gives that and nothing else. Some values can be written
but not read, so a recovery has a condition, under which the reading gives anything at all.
Recoveries compose as readings do (`RowQuery.Recovers.bind`).
-/

namespace RowQuery

variable {α β γ : Type} {reading : Option α} {written : α} {next : α → Option β} {result : β}
  {sound condition : Prop}

/-- Whether a reading gives what was written under a condition, and nothing otherwise. -/
def Recovers (reading : Option α) (written : α) (sound : Prop) : Prop :=
  ∀ given, reading = some given ↔ given = written ∧ sound

namespace Recovers

theorem of_some (read : reading = some written) (holds : sound) :
    Recovers reading written sound := by
  intro given
  rw [read, Option.some.injEq, eq_comm]
  exact (and_iff_left holds).symm

theorem of_none (unread : reading = none) (fails : ¬ sound) : Recovers reading written sound := by
  intro given
  rw [unread]
  exact iff_of_false nofun fun both => fails both.2

theorem congr (recovers : Recovers reading written sound) (same : sound ↔ condition) :
    Recovers reading written condition := by
  intro given
  rw [recovers given, same]

theorem bind (recovers : Recovers reading written sound)
    (after : Recovers (next written) result condition) :
    Recovers (reading.bind next) result (sound ∧ condition) := by
  intro given
  rw [Option.bind_eq_some_iff]
  constructor
  · rintro ⟨first, read, rest⟩
    obtain ⟨rfl, holds⟩ := (recovers first).mp read
    obtain ⟨same, also⟩ := (after given).mp rest
    exact ⟨same, holds, also⟩
  · rintro ⟨same, holds, also⟩
    exact ⟨written, (recovers written).mpr ⟨rfl, holds⟩, (after given).mpr ⟨same, also⟩⟩

/-- A part that is always read adds no condition. -/
theorem sure (read : reading = some written) (after : Recovers (next written) result condition) :
    Recovers (reading.bind next) result condition := by
  rw [read]
  exact after

/-- The last part of a value, with what the value is made of it. -/
theorem last (recovers : Recovers reading written sound) (f : α → β) :
    Recovers (reading.bind fun part => some (f part)) (f written) sound := by
  have made : Recovers (some (f written)) (f written) True := of_some rfl trivial
  exact (recovers.bind made).congr (and_iff_left trivial)

theorem map (recovers : Recovers reading written sound) (f : α → β) :
    Recovers (reading.map f) (f written) sound := by
  rw [Option.map_eq_bind]
  exact recovers.last f

/-- A reader that accepts the text of a value under a condition, and the value from no text without
it, recovers the value if some text stands for it. -/
theorem of_range {read : String → Option α} {text : String} [Decidable condition]
    (back : read text = if condition then some written else none)
    (only : ∀ {other}, read other = some written → condition) :
    Recovers (read text) written (∃ other, read other = some written) := by
  by_cases accepted : condition
  · have found : read text = some written := back.trans (if_pos accepted)
    exact of_some found ⟨text, found⟩
  · exact of_none (back.trans (if_neg accepted)) fun ⟨_, found⟩ => accepted (only found)

/-! ### Conditions on each of several parts -/

section Parts

variable {good : γ → Prop} {parts more : List γ}

theorem leaf (read : reading = some written) :
    Recovers reading written (∀ part ∈ [], good part) :=
  of_some read (List.forall_mem_nil _)

theorem append (recovers : Recovers reading written (∀ part ∈ parts, good part))
    (after : Recovers (next written) result (∀ part ∈ more, good part)) :
    Recovers (reading.bind next) result (∀ part ∈ parts ++ more, good part) :=
  (recovers.bind after).congr List.forall_mem_append.symm

theorem pair {δ : Type} {other : Option β}
    (first : Recovers reading written (∀ part ∈ parts, good part))
    (second : Recovers other result (∀ part ∈ more, good part)) (make : α → β → δ) :
    Recovers (reading.bind fun left => other.bind fun right => some (make left right))
      (make written result) (∀ part ∈ parts ++ more, good part) :=
  first.append (second.last (make written))

end Parts

end Recovers

end RowQuery
