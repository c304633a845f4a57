import RowQuery.Decimal.Digits

/-! # Reading decimals as floats

A numeral stands for the nearest float, however many digits it has; beyond the range of floats it
stands for an infinity. `Decimal.read?` reads what `Decimal.plainText` writes, and powers of ten as
well.
-/

namespace RowQuery.Decimal

/-- The float nearest to `digits * 10 ^ exponent`. Powers beyond the range of floats are decided
by the place of the leading digit alone, so that they are never computed. -/
def nearestFloat (digits : Nat) (exponent : Int) : Float :=
  let leading := (Nat.toDigits 10 digits).length + exponent
  if digits = 0 || leading < -400 then 0
  else if 400 < leading then 1.0 / 0.0
  else Float.ofScientific digits (exponent < 0) exponent.natAbs

/-- A decimal numeral: sign, integer digits, fraction digits and power of ten. -/
structure Numeral where
  /-- Whether a minus sign stands in front. -/
  negative : Bool
  /-- The digits before the point. -/
  whole : List Char
  /-- The digits after the point. -/
  fraction : List Char
  /-- The power of ten written after the digits. -/
  power : Int

/-- The float nearest to a numeral; a minus sign is kept on zero. -/
def Numeral.toFloat (numeral : Numeral) : Float :=
  let digits := ((numeral.whole ++ numeral.fraction).foldl
    (fun total c => total * 10 + (c.toNat - '0'.toNat)) 0)
  let magnitude := nearestFloat digits (numeral.power - numeral.fraction.length)
  if numeral.negative then -magnitude else magnitude

/-- The power of ten at the end of a numeral: nothing, or `e` and a signed integer. -/
def power? : List Char → Option Int
  | [] => some 0
  | e :: chars => if e = 'e' ∨ e = 'E' then Digits.readSigned? chars else none

/-- The numeral that a text without its sign writes. A point may stand before, between or after the
digits, of which there must be one. -/
def Numeral.ofChars? (negative : Bool) (chars : List Char) : Option Numeral :=
  let whole := chars.takeWhile Char.isDigit
  let (fraction, rest) :=
    match chars.dropWhile Char.isDigit with
    | '.' :: rest => (rest.takeWhile Char.isDigit, rest.dropWhile Char.isDigit)
    | rest => ([], rest)
  if whole.isEmpty && fraction.isEmpty then none
  else (power? rest).map fun power => { negative, whole, fraction, power }

/-- The float that a text without its sign writes: a numeral, an infinity or a NaN. -/
def unsigned? (negative : Bool) (chars : List Char) : Option Float :=
  let word := String.ofList (chars.map Char.toLower)
  if word = "nan" then some (0.0 / 0.0)
  else if word = "inf" ∨ word = "infinity" then
    some (if negative then -1.0 / 0.0 else 1.0 / 0.0)
  else (Numeral.ofChars? negative chars).map Numeral.toFloat

/-- The float that a text writes. -/
def read? (text : String) : Option Float :=
  match text.toList with
  | '-' :: chars => unsigned? true chars
  | '+' :: chars => unsigned? false chars
  | chars => unsigned? false chars

end RowQuery.Decimal
