import RecordMapping.Number.Binary64

/-!
# JSON documents

A document as it was read, before anything is known of what it describes. Numbers keep their
digits, objects keep the order and the repetitions of their entries, and a text whose escapes do
not spell characters is kept as `none`.

* `Numeral.integer?` is the number that a numeral without point and exponent stands for.
* `Numeral.binary64?` is the binary number that a numeral is read as. It takes the leading digits
  that fit 64 bits and scales them by a power of ten, and rounds at either step; so it is not
  always the closest one.
-/

namespace RecordMapping

/-- A number as it was written. -/
structure Numeral where
  negative : Bool
  /-- The digits before the point. -/
  whole : List Nat
  /-- The digits after the point, if there is one. -/
  fraction : Option (List Nat)
  /-- Whether the exponent is negative, and its digits, if there is one. -/
  exponent : Option (Bool × List Nat)
deriving DecidableEq, Repr

/-- A JSON document. -/
inductive Document where
  | null
  | bool (value : Bool)
  | number (value : Numeral)
  | text (value : Option String)
  | array (items : List Document)
  | object (entries : List (Option String × Document))

namespace Numeral

/-- The number that some digits spell, the most significant first. -/
def ofDigits (digits : List Nat) : Nat :=
  digits.foldl (fun value digit => value * 10 + digit) 0

/-- The whole number that the numeral stands for, if it has neither point nor exponent. Minus zero
is no whole number. -/
def integer? (numeral : Numeral) : Option Int :=
  match numeral.fraction, numeral.exponent with
  | none, none =>
      let value := ofDigits numeral.whole
      if numeral.negative then (if value = 0 then none else some (-value)) else some value
  | _, _ => none

/-- Appends digits to a number while it fits 64 bits. Gives the number and the count of digits
that were appended. -/
def absorb (value : Nat) : List Nat → Nat × Nat
  | [] => (value, 0)
  | digit :: rest =>
      if value * 10 + digit < UInt64.size then
        let (value, count) := absorb (value * 10 + digit) rest
        (value, count + 1)
      else (value, 0)

/-- The power of ten as a binary number. -/
def powerOfTen (exponent : Nat) : Binary64 :=
  Binary64.nearest false (Nat.pow 10 exponent) 1

/-- Divides by a power of ten, in steps of at most 10^308, until nothing is left. -/
def scaleDown (x : Binary64) (exponent : Nat) : Binary64 :=
  if exponent ≤ 308 then x.divide (powerOfTen exponent)
  else if x.magnitude = 0 then x
  else scaleDown (x.divide (powerOfTen 308)) (exponent - 308)
termination_by exponent

/-- Multiplies by a power of ten, unless the result is too large. -/
def scaleUp? (x : Binary64) (exponent : Nat) : Option Binary64 :=
  if x.magnitude = 0 then some x
  else if exponent ≤ 308 then
    let product := x.multiply (powerOfTen exponent)
    if product.isFinite then some product else none
  else none

/-- The binary number that the numeral is read as, if it is not too large. An exponent beyond 32
bits makes a number too large or zero, whatever its digits. -/
def binary64? (numeral : Numeral) : Option Binary64 := do
  let (leading, absorbed) := absorb 0 numeral.whole
  let (significand, places) := absorb leading (numeral.fraction.getD [])
  let shift : Int := ((numeral.whole.length - absorbed : Nat) : Int) - places
  let (exponentNegative, exponentDigits) := numeral.exponent.getD (false, [])
  let written := ofDigits exponentDigits
  let start := Binary64.nearest false significand 1
  let scaled ←
    if Nat.pow 2 31 ≤ written then
      if significand = 0 ∨ exponentNegative then some (Binary64.nearest false 0 1) else none
    else
      let exponent := if exponentNegative then shift - written else shift + written
      if 0 ≤ exponent then scaleUp? start exponent.toNat
      else some (scaleDown start (-exponent).toNat)
  return Binary64.ofMagnitude numeral.negative scaled.magnitude

end Numeral

end RecordMapping
