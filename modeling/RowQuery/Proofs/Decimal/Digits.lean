import RowQuery.Decimal.Digits
import Mathlib.Algebra.Group.Nat.Defs
import Mathlib.Data.List.Induction

/-! # Runs of digits

`RowQuery.Digits.Writes` says, without reference to the reader, which number a run of a given width
writes. The reader accepts exactly these runs (`RowQuery.Digits.read?_eq_some_iff`), and each of
them is the padded text of its number (`RowQuery.Digits.writes_iff`).
-/

namespace RowQuery.Digits

variable {width n total : Nat} {run : List Char}

/-- A run of `width` decimal digits and the number that it writes. -/
structure Writes (width : Nat) (run : List Char) (n : Nat) : Prop where
  length : run.length = width
  digits : ∀ c ∈ run, c.isDigit = true
  number : Nat.ofDigitChars 10 run 0 = n

theorem value?_eq_some_iff {c : Char} {digit : Nat} :
    value? c = some digit ↔ c.isDigit = true ∧ c.toNat - '0'.toNat = digit := by
  unfold value?
  split
  · next isDigit => rw [Option.some.injEq, and_iff_right isDigit]
  · next other => exact iff_of_false nofun fun both => other both.1

theorem foldlM_value?_eq_some_iff :
    (run.foldlM (fun total c => (value? c).map (total * 10 + ·)) total) = some n ↔
      (∀ c ∈ run, c.isDigit = true) ∧ Nat.ofDigitChars 10 run total = n := by
  induction run generalizing total with
  | nil => simp [Nat.ofDigitChars]
  | cons c rest ih =>
      simp only [List.foldlM_cons, Option.bind_eq_bind, Option.bind_eq_some_iff,
        Option.map_eq_some_iff, value?_eq_some_iff, ih, Nat.ofDigitChars_cons, List.forall_mem_cons]
      constructor
      · rintro ⟨_, ⟨_, ⟨isDigit, rfl⟩, rfl⟩, digits, rfl⟩
        exact ⟨⟨isDigit, digits⟩, by rw [Nat.mul_comm]⟩
      · rintro ⟨⟨isDigit, digits⟩, rfl⟩
        exact ⟨_, ⟨_, ⟨isDigit, rfl⟩, rfl⟩, digits, by rw [Nat.mul_comm]⟩

/-- The reader accepts the runs of digits and gives the number that they write. -/
theorem read?_eq_some_iff : read? run = some n ↔ Writes run.length run n := by
  rw [read?, foldlM_value?_eq_some_iff]
  exact ⟨fun ⟨digits, number⟩ => ⟨rfl, digits, number⟩, fun ⟨_, digits, number⟩ => ⟨digits, number⟩⟩

theorem Writes.read?_eq (writes : Writes width run n) : read? run = some n := by
  rw [read?_eq_some_iff, writes.length]
  exact writes

theorem isDigit_digitChar_mod (n : Nat) : (Nat.digitChar (n % 10)).isDigit = true := by
  rw [Nat.isDigit_digitChar]
  exact decide_eq_true (Nat.mod_lt n (by decide))

theorem isDigit_of_mem_padded {c : Char} (member : c ∈ padded width n) : c.isDigit = true := by
  induction width generalizing n with
  | zero => exact absurd member List.not_mem_nil
  | succ width ih =>
      rw [padded, List.mem_append, List.mem_singleton] at member
      rcases member with member | rfl
      · exact ih member
      · exact isDigit_digitChar_mod n

theorem ofDigitChars_padded (width n : Nat) :
    Nat.ofDigitChars 10 (padded width n) 0 = n % 10 ^ width := by
  induction width generalizing n with
  | zero => rw [padded, Nat.ofDigitChars_nil, Nat.pow_zero, Nat.mod_one]
  | succ width ih =>
      have last : n % 10 < 10 := Nat.mod_lt n (by decide)
      rw [padded, Nat.ofDigitChars_append, ih, Nat.ofDigitChars_cons_digitChar_of_lt_ten last,
        Nat.ofDigitChars_nil, Nat.pow_succ', Nat.mod_mul]
      omega

/-- A number that fits is written by its padded text. -/
theorem writes_padded (fits : n < 10 ^ width) : Writes width (padded width n) n :=
  ⟨length_padded width n, fun _ => isDigit_of_mem_padded,
    (ofDigitChars_padded width n).trans (Nat.mod_eq_of_lt fits)⟩

/-- All digits of a number write it, leading zeros or not. -/
theorem writes_atLeast (width n : Nat) :
    Writes (atLeast width n).length (atLeast width n) n := by
  unfold atLeast
  split
  · next fits =>
      rw [length_padded]
      exact writes_padded fits
  · exact ⟨rfl, fun _ => Nat.isDigit_of_mem_toDigits (by decide) (by decide),
      Nat.ofDigitChars_toDigits (by decide) (by decide)⟩

theorem digitChar_of_isDigit {c : Char} (isDigit : c.isDigit = true) :
    c.toNat - '0'.toNat < 10 ∧ Nat.digitChar (c.toNat - '0'.toNat) = c := by
  have bounds := Char.isDigit_iff_toNat.mp isDigit
  have zero : '0'.toNat = 48 := rfl
  have nine : '9'.toNat = 57 := rfl
  have small : c.toNat - '0'.toNat < 10 := by omega
  refine ⟨small, ?_⟩
  rw [← Char.toNat_inj, Nat.toNat_digitChar_of_lt_ten small]
  omega

/-- A run of digits is the padded text of its number. -/
theorem padded_ofDigitChars (digits : ∀ c ∈ run, c.isDigit = true) :
    Nat.ofDigitChars 10 run 0 < 10 ^ run.length ∧
      padded run.length (Nat.ofDigitChars 10 run 0) = run := by
  induction run using List.reverseRecOn with
  | nil => exact ⟨by decide, rfl⟩
  | append_singleton front c ih =>
      obtain ⟨frontDigits, last⟩ := List.forall_mem_append.mp digits
      obtain ⟨below, same⟩ := ih frontDigits
      obtain ⟨small, shown⟩ := digitChar_of_isDigit (last c (List.mem_singleton.mpr rfl))
      rw [Nat.ofDigitChars_append, Nat.ofDigitChars_cons, Nat.ofDigitChars_nil, List.length_append,
        List.length_singleton]
      generalize Nat.ofDigitChars 10 front 0 = number at below same ⊢
      generalize c.toNat - '0'.toNat = digit at small shown ⊢
      have front : (10 * number + digit) / 10 = number := by omega
      have units : (10 * number + digit) % 10 = digit := by omega
      rw [padded, front, units, same, shown]
      exact ⟨by omega, rfl⟩

/-- The runs that write a number are its padded texts, and a number is written in a width if it
fits. -/
theorem writes_iff : Writes width run n ↔ n < 10 ^ width ∧ run = padded width n := by
  constructor
  · rintro ⟨rfl, digits, rfl⟩
    obtain ⟨below, same⟩ := padded_ofDigitChars digits
    exact ⟨below, same.symm⟩
  · rintro ⟨fits, rfl⟩
    exact writes_padded fits

/-! ### The fewest digits -/

/-- The digits of a number, at least so many of them, are no more than it needs. -/
theorem length_atLeast_bounds {least : Nat} (pos : 1 ≤ least) (n : Nat) :
    least ≤ (atLeast least n).length ∧
      (least < (atLeast least n).length → 10 ^ ((atLeast least n).length - 1) ≤ n) := by
  unfold atLeast
  split
  · rw [length_padded]
    exact ⟨Nat.le_refl _, fun less => absurd less (Nat.lt_irrefl _)⟩
  · next long =>
      have more : least < (Nat.toDigits 10 n).length := by
        rwa [← Nat.not_le, Nat.length_toDigits_le_iff (by decide) pos]
      refine ⟨Nat.le_of_lt more, fun _ => ?_⟩
      rw [← Nat.not_lt, ← Nat.length_toDigits_le_iff (by decide) (by omega)]
      omega

theorem width_le_of_fits {least other : Nat} (fits : n < 10 ^ width) (enough : least ≤ width)
    (no_more : least < other → 10 ^ (other - 1) ≤ n) : other ≤ width := by
  by_contra wider
  have power := Nat.lt_of_le_of_lt (no_more (by omega)) fits
  have narrow := (Nat.pow_lt_pow_iff_right (by decide)).mp power
  omega

/-- With at least so many digits, and no more than it needs, a number is written in one way. -/
theorem Writes.eq_atLeast {least : Nat} (writes : Writes width run n) (pos : 1 ≤ least)
    (enough : least ≤ width) (no_more : least < width → 10 ^ (width - 1) ≤ n) :
    run = atLeast least n := by
  obtain ⟨fits, rfl⟩ := writes_iff.mp writes
  obtain ⟨room, same⟩ := writes_iff.mp (writes_atLeast least n)
  have bounds := length_atLeast_bounds pos n
  have equal : width = (atLeast least n).length :=
    Nat.le_antisymm (width_le_of_fits room bounds.1 no_more)
      (width_le_of_fits fits enough bounds.2)
  rw [same, ← equal]

end RowQuery.Digits
