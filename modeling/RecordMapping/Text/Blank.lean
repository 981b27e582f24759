/-!
# Blank characters

The characters that Unicode lists under `White_Space`, and the removal of leading and trailing
ones from a text.
-/

namespace RecordMapping.Text

/-- A character is blank when it has the Unicode property `White_Space`. -/
def isBlank (c : Char) : Bool :=
  let code := c.toNat
  (0x9 ≤ code && code ≤ 0xD) || code == 0x20 || code == 0x85 || code == 0xA0 || code == 0x1680 ||
    (0x2000 ≤ code && code ≤ 0x200A) || code == 0x2028 || code == 0x2029 || code == 0x202F ||
    code == 0x205F || code == 0x3000

/-- The characters from the first one that is not blank on. -/
def dropBlank (characters : List Char) : List Char :=
  characters.dropWhile isBlank

/-- The characters between the first and the last one that is not blank, both included. -/
def trimBlank (characters : List Char) : List Char :=
  (dropBlank (dropBlank characters).reverse).reverse

end RecordMapping.Text
