import RowQuery.Proofs.Decimal.Places

/-! # The float nearest to a whole number

A float has an exact rational value (`RowQuery.Binary64.value`), and `RowQuery.Binary64.Nearest`
says against all finite floats which one is nearest to an integer. A mantissa is rounded to within
half a unit of the number for which it stands with the bits behind it
(`RowQuery.Binary64.Represents.rounded`), and a float of lesser exponent is smaller than the number
by all of its leading bit. So the float of a whole number is the one nearest to it
(`RowQuery.Binary64.nearest_ofNat`).
-/

namespace RowQuery

namespace Binary64

open Float.Model Float.Model.UnpackedFloat

/-! ### Exact values -/

/-- The exact value of an unpacked float; zero if it is not finite. -/
def exactValue : UnpackedFloat → ℚ
  | .finite sign mantissa exponent _ => sign.apply mantissa * 2 ^ exponent
  | .zero _ | .infinity _ | .notANumber => 0

/-- The mantissa of an unpacked float. -/
def mantissaOf : UnpackedFloat → Nat
  | .finite _ mantissa _ _ => mantissa
  | .zero _ | .infinity _ | .notANumber => 0

/-- The exact value of a float; zero if it is not finite. -/
def value (x : Float) : ℚ :=
  exactValue x.toModel.unpack

/-- Whether a finite float is the one nearest to an integer. Of two that are equally near, it is the
one with the even mantissa. -/
structure Nearest (x : Float) (n : Int) : Prop where
  finite : x.isFinite = true
  near : ∀ y : Float, y.isFinite = true → |value x - n| ≤ |value y - n|
  even : ∀ y : Float, y.isFinite = true → |value y - n| = |value x - n| → value y ≠ value x →
    mantissaOf x.toModel.unpack % 2 = 0

theorem mantissaOf_unpack_lt (x : Float) : mantissaOf x.toModel.unpack < 2 ^ 53 := by
  change mantissaOf (UnpackedFloat.unpack Format.binary64 _) < 2 ^ 53
  unfold UnpackedFloat.unpack
  dsimp only
  split
  · split <;> exact Nat.two_pow_pos 53
  · split
    · split
      · exact Nat.two_pow_pos 53
      · exact Nat.lt_trans (BitVec.isLt _) (by decide)
    · exact BitVec.isLt _

theorem apply_le (sign : Sign) (mantissa : Nat) : sign.apply mantissa ≤ mantissa := by
  cases sign with
  | positive => exact Int.le_refl _
  | negative =>
      change -(mantissa : Int) ≤ mantissa
      omega

/-- In units of any power of two, a float is a whole number, or else it is less than 52 bits
long. -/
theorem whole_or_small {float : UnpackedFloat} (short : mantissaOf float < 2 ^ 53) (unit : Int) :
    (∃ k : Int, exactValue float = k * 2 ^ unit) ∨ exactValue float < 2 ^ 52 * 2 ^ unit := by
  have nothing : (0 : ℚ) = (0 : Int) * 2 ^ unit := by rw [Int.cast_zero, zero_mul]
  cases float with
  | finite sign mantissa exponent positive =>
      rcases le_or_gt unit exponent with coarse | fine
      · left
        refine ⟨sign.apply mantissa * 2 ^ (exponent - unit).toNat, ?_⟩
        have steps : exponent = (exponent - unit).toNat + unit := by omega
        have power : (2 : ℚ) ^ exponent = 2 ^ (exponent - unit).toNat * 2 ^ unit := by
          rw [← zpow_natCast, ← zpow_add₀ two_ne_zero, ← steps]
        rw [exactValue, power]
        push_cast
        ring
      · right
        have below : (sign.apply mantissa : ℚ) < 2 ^ 53 := by
          exact_mod_cast Int.lt_of_le_of_lt (apply_le sign mantissa) (Int.ofNat_lt.mpr short)
        calc exactValue (.finite sign mantissa exponent positive)
          _ < 2 ^ 53 * 2 ^ exponent := mul_lt_mul_of_pos_right below (zpow_pos two_pos _)
          _ ≤ 2 ^ 53 * 2 ^ (unit - 1) := by gcongr <;> [norm_num; omega]
          _ = 2 ^ 52 * 2 ^ unit := by rw [zpow_sub_one₀ two_ne_zero]; ring
  | zero | infinity | notANumber => exact .inl ⟨0, nothing⟩

/-! ### Rounding bits -/

/-- Whether a number is the one for which a mantissa stands with the bits behind it. -/
structure Represents (extended : ExtendedMantissa) (x : ℚ) : Prop where
  floor : extended.mantissa ≤ x ∧ x < extended.mantissa + 1
  round_iff : extended.roundBit = true ↔ extended.mantissa + 1 / 2 ≤ x
  sticky_iff : extended.stickyBit = true ↔
    x ≠ extended.mantissa ∧ x ≠ extended.mantissa + 1 / 2

variable {extended : ExtendedMantissa} {x : ℚ}

/-- The bits behind a mantissa are clear if it stands for itself. -/
theorem Represents.bits_iff (represents : Represents extended x) :
    (extended.roundBit || extended.stickyBit) = true ↔ x ≠ extended.mantissa := by
  rw [Bool.or_eq_true, represents.round_iff, represents.sticky_iff]
  constructor
  · rintro (upper | ⟨different, -⟩)
    · intro same
      linarith
    · exact different
  · intro different
    by_cases half : x = extended.mantissa + 1 / 2
    · exact .inl half.ge
    · exact .inr ⟨different, half⟩

theorem Represents.shiftRightOne (represents : Represents extended x) :
    Represents extended.shiftRightOne (x / 2) := by
  have bits := represents.bits_iff
  obtain ⟨lower, upper⟩ := represents.floor
  obtain ⟨mantissa, roundBit, stickyBit⟩ := extended
  have halves : (mantissa : ℚ) = 2 * (mantissa / 2 : Nat) + (mantissa % 2 : Nat) := by
    exact_mod_cast (Nat.div_add_mod mantissa 2).symm
  unfold ExtendedMantissa.shiftRightOne
  dsimp only at bits lower upper ⊢
  generalize mantissa / 2 = half at halves ⊢
  rcases Nat.mod_two_eq_zero_or_one mantissa with even | odd
  · rw [even, Nat.cast_zero, add_zero] at halves
    refine ⟨⟨by dsimp only; linarith, by dsimp only; linarith⟩, ?_, ?_⟩
    · simp only [even]
      refine iff_of_false nofun ?_
      linarith
    · dsimp only
      rw [bits, and_iff_left]
      · exact not_congr ⟨fun same => by linarith, fun same => by linarith⟩
      · intro same
        linarith
  · rw [odd, Nat.cast_one] at halves
    refine ⟨⟨by dsimp only; linarith, by dsimp only; linarith⟩, ?_, ?_⟩
    · simp only [odd]
      refine iff_of_true rfl ?_
      linarith
    · dsimp only
      rw [bits, and_iff_right]
      · exact not_congr ⟨fun same => by linarith, fun same => by linarith⟩
      · intro same
        linarith

theorem represents_exactly (mantissa : Nat) : Represents (exactly mantissa) mantissa := by
  refine ⟨⟨le_refl _, ?_⟩, iff_of_false nofun ?_, iff_of_false nofun fun both => both.1 rfl⟩
  · exact lt_add_one _
  · change ¬ (mantissa : ℚ) + 1 / 2 ≤ mantissa
    linarith

theorem Represents.shiftRight (represents : Represents extended x) (places : Nat) :
    Represents (extended >>> places) (x / 2 ^ places) := by
  induction places with
  | zero =>
      rw [pow_zero, div_one]
      exact represents
  | succ places ih =>
      rw [pow_succ, ← div_div]
      exact ih.shiftRightOne

/-- Rounding moves a number by half a unit at most, and if by that much, then to an even
mantissa. -/
theorem Represents.rounded (represents : Represents extended x) :
    |extended.roundedMantissa - x| ≤ 1 / 2 ∧
      (|extended.roundedMantissa - x| = 1 / 2 → extended.roundedMantissa % 2 = 0) := by
  obtain ⟨⟨lower, upper⟩, round, sticky⟩ := represents
  obtain ⟨mantissa, roundBit, stickyBit⟩ := extended
  dsimp only at lower upper round sticky
  cases roundBit with
  | false =>
      have less : x < mantissa + 1 / 2 := not_le.mp (mt round.mpr nofun)
      have down : ExtendedMantissa.roundedMantissa ⟨mantissa, false, stickyBit⟩ = mantissa := by
        cases stickyBit <;> rfl
      have near : |(mantissa : ℚ) - x| < 1 / 2 := abs_lt.mpr ⟨by linarith, by linarith⟩
      rw [down]
      exact ⟨near.le, fun tie => absurd tie near.ne⟩
  | true =>
      have least : mantissa + 1 / 2 ≤ x := round.mp rfl
      cases stickyBit with
      | false =>
          -- The bits behind the mantissa are one half, which is rounded to the even neighbour.
          have even : ExtendedMantissa.roundedMantissa ⟨mantissa, true, false⟩ =
              mantissa + mantissa % 2 := rfl
          have half : x = mantissa + 1 / 2 := by
            by_contra different
            exact absurd (sticky.mpr ⟨fun same => by linarith, different⟩) nofun
          rw [even, half]
          refine ⟨?_, fun _ => by omega⟩
          rcases Nat.mod_two_eq_zero_or_one mantissa with parity | parity
          · rw [parity, abs_le]
            constructor <;> push_cast <;> linarith
          · rw [parity, abs_le]
            constructor <;> push_cast <;> linarith
      | true =>
          have up : ExtendedMantissa.roundedMantissa ⟨mantissa, true, true⟩ = mantissa + 1 := rfl
          have more : mantissa + 1 / 2 < x := lt_of_le_of_ne least (sticky.mp rfl).2.symm
          have near : |((mantissa + 1 : Nat) : ℚ) - x| < 1 / 2 := by
            rw [abs_lt]
            constructor <;> push_cast <;> linarith
          rw [up]
          exact ⟨near.le, fun tie => absurd tie near.ne⟩

/-! ### Whole numbers -/

/-- No whole number is nearer than one that is within a half, and another one is only as near if the
distance is a half. -/
theorem near_of_half {rounded : Nat} (close : |rounded - x| ≤ 1 / 2) (other : Int) :
    |rounded - x| ≤ |other - x| ∧
      (|other - x| = |rounded - x| → other ≠ rounded → |rounded - x| = 1 / 2) := by
  by_cases same : other = rounded
  · rw [same, Int.cast_natCast]
    exact ⟨le_refl _, fun _ different => absurd rfl different⟩
  · have apart : (1 : ℚ) ≤ |(other : ℚ) - rounded| := by
      exact_mod_cast Int.one_le_abs (sub_ne_zero.mpr same)
    have through : |(other : ℚ) - rounded| ≤ |other - x| + |rounded - x| := by
      rw [abs_sub_comm (rounded : ℚ) x]
      exact abs_sub_le _ _ _
    exact ⟨by linarith, fun tie _ => by linarith⟩

/-- The unit in which the float nearest to a number has a whole mantissa. -/
def unit (n : Nat) : ℚ :=
  2 ^ ((n.log2 : Int) - 52)

theorem unit_pos (n : Nat) : 0 < unit n :=
  zpow_pos two_pos _

/-- The mantissa of a number's float is the number in these units, rounded. -/
theorem represents_units (n : Nat) :
    Represents (exactly (n <<< 53) >>> (n.log2 + 1)) (n / unit n) := by
  have scaled : (n : ℚ) / unit n = ((n <<< 53 : Nat) : ℚ) / 2 ^ (n.log2 + 1) := by
    rw [unit, zpow_sub₀ two_ne_zero, zpow_natCast, Nat.shiftLeft_eq, pow_succ]
    push_cast
    field_simp
    ring
  rw [scaled]
  exact (represents_exactly _).shiftRight _

theorem le_units {n : Nat} (positive : n ≠ 0) : 2 ^ 52 * unit n ≤ n := by
  have least : ((2 ^ n.log2 : Nat) : ℚ) ≤ n := Nat.cast_le.mpr (Nat.log2_self_le positive)
  have whole : (2 : ℚ) ^ 52 * unit n = 2 ^ n.log2 := by
    rw [unit, zpow_sub₀ two_ne_zero, zpow_natCast]
    field_simp
  rw [whole]
  exact_mod_cast least

/-- A float in the place of a number has the rounded mantissa in these units; where rounding
carries, the mantissa is even. -/
theorem exactValue_of_placed {float : UnpackedFloat} {n : Nat} (positive : n ≠ 0)
    (placed : Placed float .positive (place n)) :
    exactValue float = significand n * unit n ∧
      (significand n % 2 = 0 → mantissaOf float % 2 = 0) := by
  obtain ⟨least, most⟩ := significand_bounds positive
  rw [place, if_neg positive] at placed
  generalize at_place : significand n + 2 ^ 52 * n.log2 = place at placed
  cases placed with
  | zero => omega
  | @finite _ mantissa exponent _ normal range =>
      rcases Nat.eq_or_lt_of_le most with carried | below
      · have leading : mantissa = 2 ^ 52 := by omega
        have raised : exponent = (n.log2 : Int) - 52 + 1 := by omega
        subst leading
        refine ⟨?_, fun _ => by norm_num [mantissaOf]⟩
        rw [exactValue, raised, carried, unit, zpow_add_one₀ two_ne_zero]
        simp only [Sign.apply]
        push_cast
        ring
      · have same : mantissa = significand n := by omega
        have reached : exponent = (n.log2 : Int) - 52 := by omega
        subst same
        refine ⟨?_, id⟩
        rw [exactValue, reached, unit]
        simp only [Sign.apply]
        push_cast
        ring

theorem distance_eq (k : ℚ) (n : Nat) : |k * unit n - n| = |k - n / unit n| * unit n := by
  have scale := unit_pos n
  calc |k * unit n - n|
    _ = |(k - n / unit n) * unit n| := by rw [sub_mul, div_mul_cancel₀ _ scale.ne']
    _ = |k - n / unit n| * unit n := by rw [abs_mul, abs_of_pos scale]

/-- The least float with the exponent of a number lies between the number and anything below that
float, so that the rounded mantissa is nearer. -/
theorem distance_lt_of_small {n : Nat} {small : ℚ} (positive : n ≠ 0)
    (below : small < 2 ^ 52 * unit n) : |significand n * unit n - n| < |small - n| := by
  have floor := le_units positive
  have near : |significand n - n / unit n| ≤ |((2 ^ 52 : Int) : ℚ) - n / unit n| :=
    (near_of_half (represents_units n).rounded.1 (2 ^ 52)).1
  rw [Int.cast_pow, Int.cast_ofNat] at near
  calc |significand n * unit n - n|
    _ = |significand n - n / unit n| * unit n := distance_eq _ n
    _ ≤ |2 ^ 52 - n / unit n| * unit n := mul_le_mul_of_nonneg_right near (unit_pos n).le
    _ = |2 ^ 52 * unit n - n| := (distance_eq _ n).symm
    _ = n - 2 ^ 52 * unit n := by rw [abs_sub_comm, abs_of_nonneg (sub_nonneg.mpr floor)]
    _ < n - small := by linarith
    _ ≤ |small - n| := by
      rw [abs_sub_comm]
      exact le_abs_self _

/-- No float is nearer to a positive number than the rounded mantissa in the number's units, and
another one is only as near if this mantissa is even. -/
theorem near_of_short {float : UnpackedFloat} {n : Nat} (positive : n ≠ 0)
    (short : mantissaOf float < 2 ^ 53) :
    |significand n * unit n - n| ≤ |exactValue float - n| ∧
      (|exactValue float - n| = |significand n * unit n - n| →
        exactValue float ≠ significand n * unit n → significand n % 2 = 0) := by
  rcases whole_or_small short ((n.log2 : Int) - 52) with ⟨k, whole⟩ | small
  · have scale := unit_pos n
    have in_units : exactValue float = k * unit n := whole
    obtain ⟨close, tie_even⟩ := (represents_units n).rounded
    obtain ⟨near, tie⟩ := near_of_half close k
    rw [in_units, distance_eq, distance_eq]
    refine ⟨mul_le_mul_of_nonneg_right near scale.le, fun equal different => tie_even ?_⟩
    refine tie (mul_right_cancel₀ scale.ne' equal) fun same => different ?_
    rw [same, Int.cast_natCast]
    rfl
  · have farther := distance_lt_of_small positive small
    exact ⟨farther.le, fun equal => absurd equal farther.ne'⟩

theorem Placed.isFinite {float : UnpackedFloat} {sign : Sign} {place : Nat}
    (placed : Placed float sign place) : float.isFinite = true := by
  cases placed <;> rfl

/-- The float of a positive whole number is the one nearest to it. -/
theorem nearest_ofNat {n : Nat} (positive : n ≠ 0) (below : n < 2 ^ 64) :
    Nearest (Float.ofNat n) n := by
  have placed := placed_ofNat below
  obtain ⟨exact, even⟩ := exactValue_of_placed positive placed
  refine ⟨placed.isFinite, fun y _ => ?_, fun y _ => ?_⟩
  · rw [value, exact, Int.cast_natCast]
    exact (near_of_short positive (mantissaOf_unpack_lt y)).1
  · rw [value, value, exact, Int.cast_natCast]
    intro tie different
    exact even ((near_of_short positive (mantissaOf_unpack_lt y)).2 tie different)

end Binary64

end RowQuery
