/-!
# Blank characters

A character is **blank** if it has the Unicode property White_Space.  The
functions of this module drop the blank characters at an end of a text.

* `isBlank`: the property.
* `trimStart`, `trim`: the text without the blanks at its start, at both ends.
-/

namespace IdlDocs.Text

/-- The characters with the property White_Space. -/
def isBlank (c : Char) : Bool :=
  let n := c.toNat
  (9 ≤ n && n ≤ 13) || n == 0x20 || n == 0x85 || n == 0xa0 || n == 0x1680 ||
    (0x2000 ≤ n && n ≤ 0x200a) || n == 0x2028 || n == 0x2029 || n == 0x202f || n == 0x205f ||
    n == 0x3000

def trimStart (s : List Char) : List Char := s.dropWhile isBlank

def trim (s : List Char) : List Char := (trimStart (trimStart s).reverse).reverse

theorem trimStart_suffix (s : List Char) : trimStart s <:+ s := List.dropWhile_suffix _

end IdlDocs.Text
