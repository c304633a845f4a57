import RowQuery.Calendar.Moment
import RowQuery.Text.Blank

/-! # Dates and times as written in a query

Literals are read more generously than document text: fields need no padding, white space may
stand around each part, a year may carry a sign and then any number of digits, second 60 is a leap
second, and fraction digits beyond the ninth are dropped.
-/

namespace RowQuery.Loose

/-- The first and the last year of the calendar that literals may name. -/
def yearRange : Int × Int := (-262143, 262142)

/-- A run of one up to `most` digits, with the number it writes and the characters after it. -/
def digits? (most : Nat) (chars : List Char) : Option (Nat × List Char) :=
  let run := (chars.take most).takeWhile Char.isDigit
  if run.isEmpty then none
  else (Digits.read? run).map fun number => (number, chars.drop run.length)

/-- A field of one or two digits after optional white space. -/
def field? (chars : List Char) : Option (Nat × List Char) :=
  digits? 2 (skipBlank chars)

/-- A year of up to four digits, or of any number of digits after a sign. -/
def year? (chars : List Char) : Option (Int × List Char) :=
  match skipBlank chars with
  | '-' :: rest => (digits? rest.length rest).map fun (number, rest) => (-(number : Int), rest)
  | '+' :: rest => (digits? rest.length rest).map fun (number, rest) => ((number : Int), rest)
  | rest => (digits? 4 rest).map fun (number, rest) => ((number : Int), rest)

/-- The characters after a separator, which white space may precede. -/
def after? (separator : Char) (chars : List Char) : Option (List Char) :=
  match skipBlank chars with
  | c :: rest => if c = separator then some rest else none
  | [] => none

/-- A year, a month and a day, and the characters after them. -/
def datePart? (chars : List Char) : Option (Date × List Char) := do
  let (year, chars) ← year? chars
  let (month, chars) ← field? (← after? '-' chars)
  let (day, chars) ← field? (← after? '-' chars)
  if yearRange.1 ≤ year ∧ year ≤ yearRange.2 then
    (Date.of? year month day).map (·, chars)
  else none

/-- The fraction of a second in billionths, if a point introduces one, and the characters after
it. -/
def fraction? : List Char → Option (Nat × List Char)
  | '.' :: chars => do
    let (number, rest) ← digits? 9 chars
    some (number * Nat.pow 10 (9 - (chars.length - rest.length)), rest.dropWhile Char.isDigit)
  | chars => some (0, chars)

/-- An hour and a minute, and the characters after them. -/
def hourMinute? (chars : List Char) : Option (Nat × Nat × List Char) := do
  let (hour, chars) ← field? chars
  let (minute, chars) ← field? (← after? ':' chars)
  some (hour, minute, chars)

/-- The seconds of a time with their fraction, and the characters after them. -/
def seconds? (chars : List Char) : Option (Nat × Nat × List Char) := do
  let (second, chars) ← field? (← after? ':' chars)
  let (nano, chars) ← fraction? chars
  some (second, nano, chars)

/-- Nothing but white space is left. -/
def ended (chars : List Char) : Bool :=
  (skipBlank chars).isEmpty

/-- A date. -/
def date? (text : String) : Option Date := do
  let (date, rest) ← datePart? text.toList
  if ended rest then some date else none

/-- A time whose seconds may be left out. -/
def time? (text : String) : Option Time := do
  let (hour, minute, rest) ← hourMinute? text.toList
  if ended rest then Time.of? hour minute 0 0
  else
    let (second, nano, rest) ← seconds? rest
    if ended rest then Time.of? hour minute second nano else none

/-- A date and a time with seconds, joined by `T`. -/
def dateTime? (text : String) : Option LocalDateTime := do
  let (date, rest) ← datePart? text.toList
  let (hour, minute, rest) ← hourMinute? (← after? 'T' rest)
  let (second, nano, rest) ← seconds? rest
  let time ← Time.of? hour minute second nano
  if ended rest then some ⟨date, time⟩ else none

end RowQuery.Loose
