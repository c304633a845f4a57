/-! # The shortest decimal that reads back as a given binary fraction

A finite binary float is `significand * 2 ^ exponent`. The decimals that round to it form an
interval around it. Of the decimal grids `10 ^ k`, taken from coarse to fine, the first one with a
point in that interval gives the shortest decimal, and of two such points the nearer one is taken.
All comparisons are between natural numbers, so nothing is rounded on the way.
-/

namespace RowQuery.Decimal

/-- A nonnegative binary fraction together with the shape of its rounding interval. -/
structure Binary where
  /-- The integer multiplied by the power of two. -/
  significand : Nat
  /-- The exponent of the power of two. -/
  exponent : Int
  /-- Whether the next smaller float lies at half the distance of the next larger one. -/
  narrowBelow : Bool

/-- The magnitude of a finite 64-bit float, read off its bits. -/
def Binary.ofBits (bits : UInt64) : Binary :=
  let fraction := bits.toNat % Nat.pow 2 52
  let biased : Nat := bits.toNat / Nat.pow 2 52 % Nat.pow 2 11
  if biased = 0 then
    { significand := fraction, exponent := -1074, narrowBelow := false }
  else
    { significand := fraction + Nat.pow 2 52
      exponent := (biased : Int) - 1075
      narrowBelow := fraction = 0 && 1 < biased }

/-- A decimal number `digits * 10 ^ exponent`. -/
structure Scaled where
  /-- The integer multiplied by the power of ten. -/
  digits : Nat
  /-- The exponent of the power of ten. -/
  exponent : Int
deriving DecidableEq

/-- Which of two equally near decimals is taken. -/
inductive Tie where
  | upward
  | toEven
deriving DecidableEq

/-- The lower grid point, or the one above it when the value is nearer to that. The value is
`numerator / unit` grid steps. -/
def Tie.nearer (tie : Tie) (numerator unit below : Nat) : Nat :=
  let doubled := 2 * numerator
  let middle := (2 * below + 1) * unit
  if doubled < middle then below
  else if middle < doubled then below + 1
  else match tie with
    | .upward => below + 1
    | .toEven => if below % 2 = 0 then below else below + 1

/-- The point of the grid `10 ^ k` that stands for the value, if the grid has one inside the
rounding interval. The ends of the interval count when the significand is even. -/
def Binary.gridPoint? (value : Binary) (tie : Tie) (k : Int) : Option Nat :=
  let shift := value.exponent - 2
  let scale := Nat.pow 2 shift.toNat * Nat.pow 10 (-k).toNat
  let unit := Nat.pow 2 (-shift).toNat * Nat.pow 10 k.toNat
  let centre := 4 * value.significand * scale
  let low := (4 * value.significand - (if value.narrowBelow then 1 else 2)) * scale
  let high := (4 * value.significand + 2) * scale
  let inside := fun point =>
    if value.significand % 2 = 0 then decide (low ≤ point * unit) && decide (point * unit ≤ high)
    else decide (low < point * unit) && decide (point * unit < high)
  let below := centre / unit
  match inside below, inside (below + 1) with
  | true, true => some (tie.nearer centre unit below)
  | true, false => some below
  | false, true => some (below + 1)
  | false, false => none

/-- The grid from which the search starts: its step is above the value. -/
def Binary.coarsest (value : Binary) : Int :=
  ((Nat.log2 value.significand : Int) + value.exponent + 1) * 30103 / 100000 + 1

/-- The point of the first grid that has one, among `grids` successive grids from `10 ^ k` down. -/
def Binary.search (value : Binary) (tie : Tie) : (grids : Nat) → (k : Int) → Scaled
  | 0, k => ⟨0, k⟩
  | grids + 1, k =>
    match value.gridPoint? tie k with
    | some digits => ⟨digits, k⟩
    | none => value.search tie grids (k - 1)

/-- The shortest decimal that reads back as a positive value. Seventeen digits always do, so
twenty grids are enough. -/
def Binary.shortest (value : Binary) (tie : Tie) : Scaled :=
  value.search tie 20 value.coarsest

end RowQuery.Decimal
