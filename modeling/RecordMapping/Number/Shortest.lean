import RecordMapping.Number.Binary64

/-!
# The fewest digits that read back

A decimal reads back as a binary number when it lies between the halfway points to the number's
two neighbours; the halfway points themselves count when the significand is even. Of the decimals
with the fewest digits that read back, `Binary64.shortest` takes the one closest to the number.
Grids of ten, a hundred and so on per leading digit are tried in turn, and on each grid only the
two points next to the number.
-/

namespace RecordMapping

/-- Which way a number halfway between two decimals is written. -/
inductive Tie where
  | up
  | even
deriving DecidableEq, Repr

/-- The decimal `digits * 10 ^ exponent`. -/
structure Decimal where
  digits : Nat
  exponent : Int
deriving DecidableEq, Repr

/-- The same decimal without zeros at its end; at most `limit` are removed. -/
def Decimal.stripZeros (limit : Nat) (decimal : Decimal) : Decimal :=
  match limit with
  | 0 => decimal
  | limit + 1 =>
      if decimal.digits % 10 = 0 then
        Decimal.stripZeros limit ⟨decimal.digits / 10, decimal.exponent + 1⟩
      else decimal

namespace Binary64

/-- The digits of the point on the grid of multiples of `10 ^ exponent` that reads back as the
positive finite number `x` and is closest to it, if there is one. -/
def onGrid? (tie : Tie) (x : Binary64) (exponent : Int) : Option Nat :=
  let m := x.significand
  let scale := x.exponent - 2
  -- a quarter of the last place and a step of the grid, as multiples of one common unit
  let quarter := Nat.pow 2 scale.toNat * Nat.pow 10 (-exponent).toNat
  let step := Nat.pow 10 exponent.toNat * Nat.pow 2 (-scale).toNat
  let value := 4 * m * quarter
  -- the gap below a power of two is half as wide as the gap above, save for the smallest numbers
  let low := (if m = Nat.pow 2 52 ∧ Nat.pow 2 53 ≤ x.magnitude then 4 * m - 1
    else 4 * m - 2) * quarter
  let high := (4 * m + 2) * quarter
  let inside := fun point : Nat =>
    if m % 2 = 0 then low ≤ point ∧ point ≤ high else low < point ∧ point < high
  let below := value / step
  let lower := below * step
  let upper := (below + 1) * step
  if inside lower then
    if inside upper then
      if 2 * value < lower + upper then some below
      else if lower + upper < 2 * value then some (below + 1)
      else match tie with
        | .up => some (below + 1)
        | .even => if below % 2 = 0 then some below else some (below + 1)
    else some below
  else if inside upper then some (below + 1)
  else none

/-- Whether the positive finite number `x` is at least `10 ^ exponent`. -/
def reaches (x : Binary64) (exponent : Int) : Bool :=
  Nat.pow 10 exponent.toNat * x.fraction.2 ≤ x.fraction.1 * Nat.pow 10 (-exponent).toNat

/-- The greatest exponent such that the positive finite number `x` is at least that power of
ten. -/
def leadingExponent (x : Binary64) : Int :=
  let estimate := Int.fdiv ((x.exponent + x.significand.log2) * 30103) 100000
  if x.reaches (estimate + 1) then estimate + 1
  else if x.reaches estimate then estimate
  else estimate - 1

/-- Tries `count` grids, each ten times as fine as the one before. -/
def tryGrids (tie : Tie) (x : Binary64) : (count : Nat) → (exponent : Int) → Decimal
  | 0, exponent => ⟨x.fraction.1 * Nat.pow 10 (-exponent).toNat /
      (x.fraction.2 * Nat.pow 10 exponent.toNat), exponent⟩
  | count + 1, exponent =>
      match onGrid? tie x exponent with
      | some digits => ⟨digits, exponent⟩
      | none => tryGrids tie x count (exponent - 1)

/-- The decimal with the fewest digits that reads back as the positive finite number `x`, and of
those the closest to it. Seventeen digits always suffice. -/
def shortest (tie : Tie) (x : Binary64) : Decimal :=
  (tryGrids tie x 17 x.leadingExponent).stripZeros 17

end Binary64

end RecordMapping
