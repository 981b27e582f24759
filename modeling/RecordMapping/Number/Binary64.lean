/-!
# Binary floating-point numbers of 64 bits

A number is its bit pattern: a sign, eleven bits of exponent and 52 bits of fraction. A finite one
stands for `significand * 2 ^ exponent` with its sign.

* `Binary64.ieeeEq` is the comparison of the IEEE standard: no NaN equals anything, and the two
  zeros are equal.
* `Binary64.nearest` rounds a fraction to the closest number, and a tie to the even one.
-/

namespace RecordMapping

/-- A binary floating-point number of 64 bits, as its bit pattern. -/
structure Binary64 where
  bits : UInt64
deriving DecidableEq, Repr

namespace Binary64

/-- The bit pattern without its sign. -/
def magnitude (x : Binary64) : Nat :=
  x.bits.toNat % Nat.pow 2 63

/-- Whether the sign bit is set. -/
def isNegative (x : Binary64) : Bool :=
  Nat.pow 2 63 ≤ x.bits.toNat

/-- The magnitude of infinity: all bits of the exponent and none of the fraction. -/
def infinity : Nat := 0x7FF * Nat.pow 2 52

def isNaN (x : Binary64) : Bool :=
  infinity < x.magnitude

def isInfinite (x : Binary64) : Bool :=
  x.magnitude == infinity

def isFinite (x : Binary64) : Bool :=
  x.magnitude < infinity

/-- The whole number that the fraction stands for, with the leading bit of a normal number. -/
def significand (x : Binary64) : Nat :=
  if x.magnitude < Nat.pow 2 52 then x.magnitude
  else Nat.pow 2 52 + x.magnitude % Nat.pow 2 52

/-- The power of two by which the significand is scaled. -/
def exponent (x : Binary64) : Int :=
  (max (x.magnitude / Nat.pow 2 52) 1 : Nat) - 1075

/-- Equality of the IEEE standard. -/
def ieeeEq (x y : Binary64) : Bool :=
  !x.isNaN && !y.isNaN && (x == y || (x.magnitude == 0 && y.magnitude == 0))

/-- The number with the given sign and magnitude. -/
def ofMagnitude (negative : Bool) (magnitude : Nat) : Binary64 :=
  ⟨UInt64.ofNat (if negative then Nat.pow 2 63 + magnitude else magnitude)⟩

/-- The quotient of two numbers rounded to a whole number, a half to the even neighbour. -/
def divideToEven (numerator denominator : Nat) : Nat :=
  let quotient := numerator / denominator
  let remainder := numerator % denominator
  if denominator < 2 * remainder ∨ (denominator = 2 * remainder ∧ quotient % 2 = 1) then
    quotient + 1
  else quotient

/-- The magnitude of the number closest to a fraction, infinity if the fraction is too large. A
tie goes to the even significand. -/
def nearestMagnitude (numerator denominator : Nat) : Nat :=
  if numerator = 0 then 0
  else
    -- the quotient at this scale has 53 or 54 bits, or the scale is that of the smallest numbers
    let scale := max ((numerator.log2 : Int) - denominator.log2 - 53) (-1074)
    let above := numerator * Nat.pow 2 (-scale).toNat
    let below := denominator * Nat.pow 2 scale.toNat
    let shift := if above / below < Nat.pow 2 53 then 0 else 1
    let significand := divideToEven above (below * Nat.pow 2 shift)
    min (((scale + 1074).toNat + shift) * Nat.pow 2 52 + significand) infinity

/-- The number closest to a fraction with a sign. -/
def nearest (negative : Bool) (numerator denominator : Nat) : Binary64 :=
  ofMagnitude negative (nearestMagnitude numerator denominator)

/-- The magnitude of a finite number as a fraction. -/
def fraction (x : Binary64) : Nat × Nat :=
  (x.significand * Nat.pow 2 x.exponent.toNat, Nat.pow 2 (-x.exponent).toNat)

/-- The product of two finite numbers, without their signs. -/
def multiply (x y : Binary64) : Binary64 :=
  nearest false (x.fraction.1 * y.fraction.1) (x.fraction.2 * y.fraction.2)

/-- The quotient of a finite number and a positive one, without their signs. -/
def divide (x y : Binary64) : Binary64 :=
  nearest false (x.fraction.1 * y.fraction.2) (x.fraction.2 * y.fraction.1)

end Binary64

end RecordMapping
