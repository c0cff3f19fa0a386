/-!
# Blank characters

The characters of the Unicode property White_Space, and texts without them at either end. The zero
width space and the byte order mark are not blank.
-/

namespace VaultBatch.Text

/-- Whether a character has the property White_Space. -/
def isBlank (c : Char) : Bool :=
  let n := c.toNat
  (9 ≤ n && n ≤ 13) || n == 0x20 || n == 0x85 || n == 0xa0 || n == 0x1680 ||
    (0x2000 ≤ n && n ≤ 0x200a) || n == 0x2028 || n == 0x2029 || n == 0x202f || n == 0x205f ||
    n == 0x3000

/-- A text without the blank characters at its ends. -/
def trim (text : List Char) : List Char :=
  ((text.dropWhile isBlank).reverse.dropWhile isBlank).reverse

/-- A text with its ASCII letters in lower case; other letters stay. -/
def lowerAscii (text : List Char) : List Char :=
  text.map Char.toLower

end VaultBatch.Text
