import RowQuery.Calendar.Moment

/-! # ISO layouts

The four padded layouts that make a text a temporal value: `yyyy-MM-dd`, `HH:mm[:ss[.f]]` with up to
nine fraction digits, a date and a time joined by `T`, and such a pair with seconds followed by `Z`
or an offset `±HH:mm`. Anything else, an unpadded field or a leap second among it, is not read.
-/

namespace RowQuery.Iso

/-- A date `yyyy-MM-dd`. -/
def date? : List Char → Option Date
  | [y₁, y₂, y₃, y₄, '-', m₁, m₂, '-', d₁, d₂] => do
    let year ← Digits.read? [y₁, y₂, y₃, y₄]
    let month ← Digits.read? [m₁, m₂]
    let day ← Digits.read? [d₁, d₂]
    Date.of? year month day
  | _ => none

/-- The fraction of a second in billionths, written with one to nine digits after a point. -/
def fraction? : List Char → Option Nat
  | [] => some 0
  | '.' :: digits =>
    if 1 ≤ digits.length ∧ digits.length ≤ 9 then
      (Digits.read? digits).map (· * Nat.pow 10 (9 - digits.length))
    else none
  | _ => none

/-- The seconds of a time and their fraction; both are zero when nothing is written. -/
def seconds? : List Char → Option (Nat × Nat)
  | [] => some (0, 0)
  | ':' :: s₁ :: s₂ :: fraction => do
    let second ← Digits.read? [s₁, s₂]
    let nano ← fraction? fraction
    if second < 60 then some (second, nano) else none
  | _ => none

/-- A time `HH:mm`, `HH:mm:ss` or `HH:mm:ss.f`. -/
def time? : List Char → Option Time
  | h₁ :: h₂ :: ':' :: m₁ :: m₂ :: seconds => do
    let hour ← Digits.read? [h₁, h₂]
    let minute ← Digits.read? [m₁, m₂]
    let (second, nano) ← seconds? seconds
    Time.of? hour minute second nano
  | _ => none

/-- A date and a time joined by `T`. -/
def dateTime? (chars : List Char) : Option LocalDateTime :=
  match chars.drop 10 with
  | 'T' :: time => do
    let date ← date? (chars.take 10)
    let time ← time? time
    some ⟨date, time⟩
  | _ => none

/-- An offset `±HH:mm` of less than a day. -/
def offset? : List Char → Option Offset
  | [sign, h₁, h₂, ':', m₁, m₂] => do
    let hours ← Digits.read? [h₁, h₂]
    let minutes ← Digits.read? [m₁, m₂]
    if signed : (sign = '+' ∨ sign = '-') ∧ hours < 24 ∧ minutes < 60 then
      some ⟨sign = '-', hours, minutes, signed.2.1, signed.2.2⟩
    else none
  | _ => none

/-- The offset written as `Z`. -/
def zeroOffset : Offset :=
  ⟨false, 0, 0, by decide, by decide⟩

/-- A text split before its offset. -/
def splitOffset? (chars : List Char) : Option (List Char × Offset) :=
  if chars.getLast? = some 'Z' then some (chars.dropLast, zeroOffset)
  else (offset? (chars.drop (chars.length - 6))).map (chars.take (chars.length - 6), ·)

/-- The length of a date and time whose seconds are written. -/
def secondsEnd : Nat := 19

/-- A date and a time with seconds, followed by an offset. -/
def instant? (chars : List Char) : Option Instant := do
  let (moment, offset) ← splitOffset? chars
  let moment ← if secondsEnd ≤ moment.length then dateTime? moment else none
  some (Instant.ofLocal moment offset)

end RowQuery.Iso
