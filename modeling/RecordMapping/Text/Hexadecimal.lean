/-!
# Hexadecimal digits

Digits are written in lower case and read in either case.
-/

namespace RecordMapping.Text

/-- The lowercase hexadecimal digit for a number below sixteen. -/
def hexDigit (value : Nat) : Char :=
  if value < 10 then Char.ofNat (0x30 + value) else Char.ofNat (0x61 + (value - 10))

/-- The low `count` hexadecimal digits of a number, the most significant first. -/
def hexDigits (count value : Nat) : List Char :=
  match count with
  | 0 => []
  | count + 1 => hexDigits count (value / 16) ++ [hexDigit (value % 16)]

/-- The number that a hexadecimal digit stands for. -/
def hexValue? (c : Char) : Option Nat :=
  if c.isDigit then some (c.toNat - 0x30)
  else if 'a'.toNat ≤ c.toNat ∧ c.toNat ≤ 'f'.toNat then some (c.toNat - 'a'.toNat + 10)
  else if 'A'.toNat ≤ c.toNat ∧ c.toNat ≤ 'F'.toNat then some (c.toNat - 'A'.toNat + 10)
  else none

/-- The number that some hexadecimal digits spell, the most significant first. -/
def ofHexDigits? (digits : List Char) : Option Nat :=
  (digits.mapM hexValue?).map fun values =>
    values.foldl (fun value digit => value * 16 + digit) 0

end RecordMapping.Text
