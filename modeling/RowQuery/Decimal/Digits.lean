/-! # Runs of decimal digits

Digits are read and written most significant first. Only the ten ASCII digits count.
-/

namespace RowQuery.Digits

/-- The value of a decimal digit. -/
def value? (c : Char) : Option Nat :=
  if c.isDigit then some (c.toNat - '0'.toNat) else none

/-- The number that a run of digits writes, none if another character is among them. -/
def read? (run : List Char) : Option Nat :=
  run.foldlM (fun total c => (value? c).map (total * 10 + ·)) 0

/-- The integer that digits write after an optional sign. At least one digit is needed. -/
def readSigned? (chars : List Char) : Option Int :=
  let magnitude := fun run : List Char =>
    if run.isEmpty then none else (read? run).map fun total => (total : Int)
  match chars with
  | '-' :: run => (magnitude run).map (-·)
  | '+' :: run => magnitude run
  | run => magnitude run

/-- The last `width` digits of a number, with leading zeros. -/
def padded : Nat → Nat → List Char
  | 0, _ => []
  | width + 1, n => padded width (n / 10) ++ [Nat.digitChar (n % 10)]

/-- All digits of a number, with leading zeros up to `width`. -/
def atLeast (width n : Nat) : List Char :=
  if n < Nat.pow 10 width then padded width n else Nat.toDigits 10 n

/-- The digits of an integer, after a minus sign if it is negative. -/
def signed (n : Int) : List Char :=
  (if n < 0 then ['-'] else []) ++ Nat.toDigits 10 n.natAbs

/-- Writing takes exactly the places asked for. -/
@[simp] theorem length_padded (width n : Nat) : (padded width n).length = width := by
  induction width generalizing n with
  | zero => rfl
  | succ width ih => simp only [padded, List.length_append, ih, List.length_singleton]

end RowQuery.Digits
