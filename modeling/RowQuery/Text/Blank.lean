/-! # White space

The characters with the Unicode property `White_Space`.
-/

namespace RowQuery

/-- Whether a character is white space. -/
def isBlank (c : Char) : Bool :=
  let point := c.toNat
  (0x09 ≤ point && point ≤ 0x0D) || point = 0x20 || point = 0x85 || point = 0xA0 ||
    point = 0x1680 || (0x2000 ≤ point && point ≤ 0x200A) || point = 0x2028 || point = 0x2029 ||
    point = 0x202F || point = 0x205F || point = 0x3000

/-- The characters from the first one on that is not white space. -/
def skipBlank (chars : List Char) : List Char :=
  chars.dropWhile isBlank

end RowQuery
