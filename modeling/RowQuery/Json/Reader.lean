import RowQuery.Decimal.Reading
import RowQuery.Json.Node

/-! # Reading JSON text

The reader takes bytes from the front and gives back what it read together with the bytes after it.
It stops at the first fault: a text that ends too early is told apart from one that is malformed.
At most `nestingLimit` arrays and objects may be open at the same time, numbers must lie in the
range of floats, and strings must be well-formed UTF-8 without lone surrogates. A value that is only
skipped is held to the grammar alone.

Values keep their field names as they are written, repeated ones included; `Json.readBytes` merges
them once the whole document is read.
-/

namespace RowQuery.Json

/-- Text as bytes. -/
abbrev Bytes := List UInt8

/-- Why a text cannot be read. -/
inductive Fault where
  /-- The text breaks a rule of the grammar. -/
  | malformed
  /-- The text ends where more was needed. -/
  | truncated
  /-- The text is JSON, but not of the wanted shape. -/
  | mismatched
deriving DecidableEq

/-- The result of reading from the front: a value and the bytes after it. -/
abbrev Read (α : Type) := Except Fault (α × Bytes)

/-- How closely a value is looked at. -/
inductive Scrutiny where
  /-- The value is wanted. -/
  | full
  /-- The value is skipped: only the grammar counts. -/
  | grammarOnly
deriving DecidableEq

/-- The number of arrays and objects that may be open at the same time. -/
def nestingLimit : Nat := 127

/-- Space, tab, line feed and carriage return separate tokens. -/
def isSeparator (byte : UInt8) : Bool :=
  byte = 0x20 || byte = 0x09 || byte = 0x0A || byte = 0x0D

/-- The bytes from the next token on. -/
def skipSeparators (bytes : Bytes) : Bytes :=
  bytes.dropWhile isSeparator

/-- Whether a byte is a decimal digit. -/
def isDigit (byte : UInt8) : Bool :=
  0x30 ≤ byte && byte ≤ 0x39

/-- The fault at a place where the text breaks off or goes on wrongly. -/
def faultAt (bytes : Bytes) : Fault :=
  if bytes.isEmpty then .truncated else .malformed

/-! ### Words -/

/-- The bytes after a fixed word. -/
def readWord : (word : Bytes) → Bytes → Except Fault Bytes
  | [], bytes => .ok bytes
  | _ :: _, [] => .error .truncated
  | wanted :: word, byte :: bytes =>
    if byte = wanted then readWord word bytes else .error .malformed

/-! ### Strings -/

/-- The value of a hexadecimal digit. -/
def hexDigit? (byte : UInt8) : Option Nat :=
  if isDigit byte then some (byte.toNat - 0x30)
  else if 0x61 ≤ byte && byte ≤ 0x66 then some (byte.toNat - 0x61 + 10)
  else if 0x41 ≤ byte && byte ≤ 0x46 then some (byte.toNat - 0x41 + 10)
  else none

/-- The code unit that four hexadecimal digits write. -/
def hexUnit? (a b c d : UInt8) : Option Nat := do
  let a ← hexDigit? a
  let b ← hexDigit? b
  let c ← hexDigit? c
  let d ← hexDigit? d
  some (((a * 16 + b) * 16 + c) * 16 + d)

/-- Whether a code unit opens a surrogate pair. -/
def isHighSurrogate (unit : Nat) : Bool := 0xD800 ≤ unit && unit ≤ 0xDBFF

/-- Whether a code unit closes a surrogate pair. -/
def isLowSurrogate (unit : Nat) : Bool := 0xDC00 ≤ unit && unit ≤ 0xDFFF

/-- The code point of a surrogate pair. -/
def pairPoint (high low : Nat) : Nat :=
  0x10000 + (high - 0xD800) * 0x400 + (low - 0xDC00)

/-- The UTF-8 form of a code point. -/
def pointBytes (point : Nat) : Bytes :=
  (String.ofList [Char.ofNat point]).toUTF8.toList

/-- The byte that a one-letter escape stands for. -/
def letterEscape? (byte : UInt8) : Option UInt8 :=
  if byte = 0x22 || byte = 0x5C || byte = 0x2F then some byte
  else if byte = 0x62 then some 0x08
  else if byte = 0x66 then some 0x0C
  else if byte = 0x6E then some 0x0A
  else if byte = 0x72 then some 0x0D
  else if byte = 0x74 then some 0x09
  else none

/-- The fault after the first half of a surrogate pair when no second half follows. -/
def halfPairFault : Bytes → Fault
  | [] => .truncated
  | [0x5C] => .truncated
  | 0x5C :: 0x75 :: rest => if rest.length < 4 then .truncated else .malformed
  | _ => .malformed

/-- The rest of a string whose opening quote is already read; `reversed` holds the bytes so far. -/
def readTextFrom (scrutiny : Scrutiny) (reversed : Bytes) : Bytes → Read String
  | [] => .error .truncated
  | 0x22 :: rest =>
    match String.fromUTF8? ⟨reversed.reverse.toArray⟩ with
    | some text => .ok (text, rest)
    | none => .error .malformed
  | 0x5C :: 0x75 :: a :: b :: c :: d :: rest =>
    match hexUnit? a b c d with
    | none => .error .malformed
    | some unit =>
      if scrutiny = .grammarOnly then readTextFrom scrutiny reversed rest
      else if isLowSurrogate unit then .error .malformed
      else if isHighSurrogate unit then
        match rest with
        | 0x5C :: 0x75 :: e :: f :: g :: h :: rest =>
          match hexUnit? e f g h with
          | none => .error .malformed
          | some low =>
            if isLowSurrogate low then
              readTextFrom scrutiny ((pointBytes (pairPoint unit low)).reverse ++ reversed) rest
            else .error .malformed
        | rest => .error (halfPairFault rest)
      else readTextFrom scrutiny ((pointBytes unit).reverse ++ reversed) rest
  | 0x5C :: 0x75 :: _ => .error .truncated
  | [0x5C] => .error .truncated
  | 0x5C :: letter :: rest =>
    match letterEscape? letter with
    | some byte => readTextFrom scrutiny (byte :: reversed) rest
    | none => .error .malformed
  | byte :: rest =>
    if byte < 0x20 then .error .malformed else readTextFrom scrutiny (byte :: reversed) rest

/-- A string, from its opening quote on. -/
def readText (scrutiny : Scrutiny) : Bytes → Read String
  | 0x22 :: rest => readTextFrom scrutiny [] rest
  | bytes => .error (faultAt bytes)

/-! ### Numbers -/

/-- The leading digits as characters, and the bytes after them. -/
def spanDigits (bytes : Bytes) : List Char × Bytes :=
  ((bytes.takeWhile isDigit).map fun byte => Char.ofNat byte.toNat, bytes.dropWhile isDigit)

/-- At least one digit. A skipped number must not even end here. -/
def readDigits (scrutiny : Scrutiny) (bytes : Bytes) : Read (List Char) :=
  match spanDigits bytes with
  | ([], rest) => .error (if scrutiny = .full then faultAt rest else .malformed)
  | (digits, rest) => .ok (digits, rest)

/-- The digits before the point: a single zero, or digits that start with another one. -/
def readWhole (scrutiny : Scrutiny) (bytes : Bytes) : Read (List Char) :=
  match readDigits scrutiny bytes with
  | .ok ('0' :: _ :: _, _) => .error .malformed
  | result => result

/-- A fraction, if a point introduces one. -/
def readFraction (scrutiny : Scrutiny) : Bytes → Read (Option (List Char))
  | 0x2E :: rest => (readDigits scrutiny rest).map fun (digits, rest) => (some digits, rest)
  | bytes => .ok (none, bytes)

/-- The number that digits write. -/
def digitsValue (digits : List Char) : Nat :=
  (Digits.read? digits).getD 0

/-- A power of ten, if a letter introduces one. -/
def readPower (scrutiny : Scrutiny) (bytes : Bytes) : Read (Option Int) :=
  let signed := fun (sign : Int) (rest : Bytes) =>
    (readDigits scrutiny rest).map fun (digits, rest) =>
      (some (sign * (digitsValue digits : Int)), rest)
  match bytes with
  | e :: rest =>
    if e = 0x65 || e = 0x45 then
      match rest with
      | 0x2B :: rest => signed 1 rest
      | 0x2D :: rest => signed (-1) rest
      | rest => signed 1 rest
    else .ok (none, bytes)
  | [] => .ok (none, [])

/-- The number with these parts. Without fraction and power it is an integer if it is in range;
minus zero is a float. -/
def numberOfParts (negative : Bool) (whole : List Char) (fraction : Option (List Char))
    (power : Option Int) : Option Number :=
  let asFloat := Number.ofFloat?
    (Decimal.Numeral.toFloat ⟨negative, whole, fraction.getD [], power.getD 0⟩)
  match fraction, power with
  | none, none =>
    let magnitude := digitsValue whole
    if negative && magnitude = 0 then asFloat
    else (Number.ofInt? (if negative then -magnitude else magnitude)).or asFloat
  | _, _ => asFloat

/-- A number without its sign. -/
def readMagnitude (scrutiny : Scrutiny) (negative : Bool) (bytes : Bytes) :
    Except Fault (Node × Bytes) := do
  let (whole, rest) ← readWhole scrutiny bytes
  let (fraction, rest) ← readFraction scrutiny rest
  let (power, rest) ← readPower scrutiny rest
  if scrutiny = .grammarOnly then .ok (.null, rest)
  else
    match numberOfParts negative whole fraction power with
    | some number => .ok (.number number, rest)
    | none => .error .malformed

/-! ### Values -/

/-- The value of a scalar, given the bytes from the token on. -/
def readScalar (scrutiny : Scrutiny) (bytes : Bytes) : Read Node :=
  match bytes with
  | [] => .error .truncated
  | byte :: rest =>
    if byte = 0x22 then (readTextFrom scrutiny [] rest).map fun (text, rest) => (.text text, rest)
    else if byte = 0x2D then readMagnitude scrutiny true rest
    else if isDigit byte then readMagnitude scrutiny false bytes
    else if byte = 0x6E then (readWord [0x75, 0x6C, 0x6C] rest).map (.null, ·)
    else if byte = 0x74 then (readWord [0x72, 0x75, 0x65] rest).map (.boolean true, ·)
    else if byte = 0x66 then (readWord [0x61, 0x6C, 0x73, 0x65] rest).map (.boolean false, ·)
    else .error .malformed

/-- The next item of an array, or nothing when it closes: the bytes from the item on, else those
after the bracket. -/
def nextItem (first : Bool) (bytes : Bytes) : Read Bool :=
  match skipSeparators bytes with
  | [] => .error .truncated
  | 0x5D :: rest => .ok (false, rest)
  | byte :: rest =>
    if first then .ok (true, byte :: rest)
    else if byte = 0x2C then
      match skipSeparators rest with
      | [] => .error .truncated
      | 0x5D :: _ => .error .malformed
      | rest => .ok (true, rest)
    else .error .malformed

/-- The next field name of an object, or nothing when it closes, and the bytes after either. -/
def nextName (scrutiny : Scrutiny) (first : Bool) (bytes : Bytes) : Read (Option String) :=
  let named := fun bytes => (readText scrutiny bytes).map fun (name, rest) => (some name, rest)
  match skipSeparators bytes with
  | [] => .error .truncated
  | 0x7D :: rest => .ok (none, rest)
  | byte :: rest =>
    if first then named (byte :: rest)
    else if byte = 0x2C then named (skipSeparators rest)
    else .error .malformed

/-- The bytes after the colon that follows a field name. -/
def afterColon (bytes : Bytes) : Except Fault Bytes :=
  match skipSeparators bytes with
  | 0x3A :: rest => .ok rest
  | rest => .error (faultAt rest)

mutual

/-- A value. Each step takes a byte or opens a container whose bracket is a byte, so twice as many
steps as there are bytes are enough; `depth` counts the containers that may still be opened. -/
def readValue (scrutiny : Scrutiny) : (steps depth : Nat) → Bytes → Read Node
  | 0, _, _ => .error .truncated
  | steps + 1, depth, bytes =>
    match skipSeparators bytes, depth with
    | 0x5B :: rest, depth + 1 => readItems scrutiny steps depth true [] rest
    | 0x7B :: rest, depth + 1 => readFields scrutiny steps depth true [] rest
    | rest, _ => readScalar scrutiny rest

/-- The items of an array that is already opened; `reversed` holds those read so far. -/
def readItems (scrutiny : Scrutiny) : (steps depth : Nat) → (first : Bool) →
    (reversed : List Node) → Bytes → Read Node
  | 0, _, _, _, _ => .error .truncated
  | steps + 1, depth, first, reversed, bytes =>
    match nextItem first bytes with
    | .error fault => .error fault
    | .ok (false, rest) => .ok (.array reversed.reverse, rest)
    | .ok (true, rest) =>
      match readValue scrutiny steps depth rest with
      | .error fault => .error fault
      | .ok (item, rest) => readItems scrutiny steps depth false (item :: reversed) rest

/-- The fields of an object that is already opened; `reversed` holds those read so far. -/
def readFields (scrutiny : Scrutiny) : (steps depth : Nat) → (first : Bool) →
    (reversed : List (String × Node)) → Bytes → Read Node
  | 0, _, _, _, _ => .error .truncated
  | steps + 1, depth, first, reversed, bytes =>
    match nextName scrutiny first bytes with
    | .error fault => .error fault
    | .ok (none, rest) => .ok (.object reversed.reverse, rest)
    | .ok (some name, rest) =>
      match afterColon rest with
      | .error fault => .error fault
      | .ok rest =>
        match readValue scrutiny steps depth rest with
        | .error fault => .error fault
        | .ok (entry, rest) =>
          readFields scrutiny steps depth false ((name, entry) :: reversed) rest

end

/-- Steps that are enough to read any prefix of a text. -/
def enoughSteps (bytes : Bytes) : Nat := 2 * bytes.length + 2

/-- A value that is wanted, inside `nestingLimit - depth` open containers. -/
def readNode (depth : Nat) (bytes : Bytes) : Read Node :=
  readValue .full (enoughSteps bytes) depth bytes

/-- The bytes after a value that is not wanted, however deeply it is nested. -/
def skipNode (bytes : Bytes) : Except Fault Bytes :=
  (readValue .grammarOnly (enoughSteps bytes) (bytes.length + 1) bytes).map Prod.snd

/-- Nothing but separators may follow a complete text. -/
def ended (bytes : Bytes) : Except Fault Unit :=
  if (skipSeparators bytes).isEmpty then .ok () else .error .malformed

/-- The document that bytes write. -/
def readBytes (bytes : Bytes) : Except Fault Node := do
  let (node, rest) ← readNode nestingLimit bytes
  ended rest
  return node.merged

/-- The bytes of a text. -/
def bytesOf (text : String) : Bytes := text.toUTF8.toList

/-- The document that a text writes. -/
def read (text : String) : Except Fault Node :=
  readBytes (bytesOf text)

end RowQuery.Json
