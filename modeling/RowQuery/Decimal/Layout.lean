import RowQuery.Decimal.Shortest

/-! # Writing floats as text

A layout decides where positional notation ends, whether an integral value keeps a `.0`, and which
of two equally near decimals is written. The digits are always the shortest that read back.
-/

namespace RowQuery.Decimal

/-- The decisions of a text format for finite floats. -/
structure Layout where
  /-- Whether a number is written positionally, given the exponent of its leading digit. -/
  positional : Int → Bool
  /-- Whether integral values in positional notation end in `.0`. -/
  pointZero : Bool
  /-- Which of two equally near decimals is written. -/
  tie : Tie

/-- Every digit is written out: no exponent, and no point after an integral value. -/
def Layout.plain : Layout where
  positional := fun _ => true
  pointZero := false
  tie := .upward

/-- Numbers in JSON text: positional from `1e-5` up to below `1e16`, and recognisable as a
fraction by a point or an exponent. -/
def Layout.json : Layout where
  positional := fun leading => -5 ≤ leading && leading < 16
  pointZero := true
  tie := .toEven

/-- A run of zeros. -/
def zeros (count : Nat) : List Char :=
  List.replicate count '0'

/-- Digits with their decimal point in place. -/
def Layout.positionalText (layout : Layout) (digits : List Char) (exponent : Int) : List Char :=
  let leading := (digits.length : Int) + exponent
  if 0 ≤ exponent then
    digits ++ zeros exponent.toNat ++ (if layout.pointZero then ['.', '0'] else [])
  else if 0 < leading then
    digits.take leading.toNat ++ '.' :: digits.drop leading.toNat
  else
    '0' :: '.' :: zeros (-leading).toNat ++ digits

/-- Digits with a point after the first one and a signed power of ten. -/
def exponentText (digits : List Char) (leading : Int) : List Char :=
  digits.take 1 ++ (if digits.length = 1 then [] else '.' :: digits.drop 1) ++
    'e' :: (if leading < 0 then '-' else '+') :: Nat.toDigits 10 leading.natAbs

/-- The text of a positive decimal. -/
def Layout.scaledText (layout : Layout) (number : Scaled) : List Char :=
  let digits := Nat.toDigits 10 number.digits
  let leading := (digits.length : Int) + number.exponent - 1
  if layout.positional leading then layout.positionalText digits number.exponent
  else exponentText digits leading

/-- The text of a finite float; the sign of zero is kept. -/
def Layout.finiteText (layout : Layout) (x : Float) : String :=
  let value := Binary.ofBits x.toBits
  let sign := if Nat.pow 2 63 ≤ x.toBits.toNat then ['-'] else []
  let magnitude :=
    if value.significand = 0 then layout.positionalText ['0'] 0
    else layout.scaledText (value.shortest layout.tie)
  String.ofList (sign ++ magnitude)

/-- The text of any float with every digit written out. -/
def plainText (x : Float) : String :=
  if x.isNaN then "NaN"
  else if x.isInf then (if 0 < x then "inf" else "-inf")
  else Layout.plain.finiteText x

end RowQuery.Decimal
