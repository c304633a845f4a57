import RowQuery.Decimal.Bits

/-! # JSON numbers

A number written without fraction and exponent that fits a signed or an unsigned 64-bit word is an
integer; every other number is a finite float. The two kinds never mix: `1` and `1.0` are
different numbers.
-/

namespace RowQuery

/-- The integers that a JSON number holds exactly. -/
def IntegerRange (n : Int) : Prop :=
  -9_223_372_036_854_775_808 ≤ n ∧ n < 18_446_744_073_709_551_616

instance (n : Int) : Decidable (IntegerRange n) := inferInstanceAs (Decidable (_ ∧ _))

/-- A JSON number. -/
inductive Number where
  | integer (n : Int) (inRange : IntegerRange n)
  | decimal (x : Float) (finite : x.isFinite = true)
deriving DecidableEq

namespace Number

/-- An integer as a number, if it is in range. -/
def ofInt? (n : Int) : Option Number :=
  if inRange : IntegerRange n then some (.integer n inRange) else none

/-- A float as a number, if it is finite. -/
def ofFloat? (x : Float) : Option Number :=
  if finite : x.isFinite = true then some (.decimal x finite) else none

/-- A signed 64-bit word as a number. -/
def ofInt64 (n : Int64) : Number :=
  .integer n.toInt ⟨n.le_toInt, Int.lt_trans n.toInt_lt (by decide)⟩

/-- The signed 64-bit word that a number holds, if it is an integer of that range. -/
def toInt64? : Number → Option Int64
  | .integer n _ => if n < 9_223_372_036_854_775_808 then some (Int64.ofInt n) else none
  | .decimal _ _ => none

/-- The float nearest to a number. -/
def toFloat : Number → Float
  | .integer n _ => Float.ofInt n
  | .decimal x _ => x

/-- A word is recovered from its number. -/
theorem toInt64?_ofInt64 (n : Int64) : (ofInt64 n).toInt64? = some n := by
  have below : n.toInt < 9_223_372_036_854_775_808 := n.toInt_lt
  simp only [ofInt64, toInt64?, below, ↓reduceIte, Int64.ofInt_toInt]

end Number

end RowQuery
