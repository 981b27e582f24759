import Mathlib.Algebra.Order.Field.Rat
import Mathlib.Order.Monotone.Basic
import Mathlib.Tactic.NormNum
import Mathlib.Tactic.Ring
import RecordMapping.Number.Binary64

/-!
# The numbers that bit patterns stand for

`Binary64.number` is the rational number that a bit pattern stands for. A greater magnitude stands
for a greater number, so that two patterns that stand for the same number differ at most in the sign
of zero. Hence the comparison of the IEEE standard, which looks at bits alone, compares numbers
(`Binary64.ieeeEq_iff_number_eq`), and to ask for equal bits or for equal numbers is to ask for
equal bits once zeros have lost their sign (`Binary64.eq_or_ieeeEq_iff`).
-/

namespace RecordMapping.Binary64

/-- The number that a finite bit pattern stands for. Infinity counts as the power of two that comes
after the largest number; for a NaN the number means nothing. -/
def number (x : Binary64) : ℚ :=
  (if x.isNegative then -1 else 1) * x.significand * 2 ^ x.exponent

/-- The bit pattern with the sign of a zero taken off. -/
def canonical (x : Binary64) : Binary64 :=
  if x.magnitude = 0 then ⟨0⟩ else x

/-- How often the least positive number goes into the number of a magnitude. -/
def weight (magnitude : Nat) : Nat :=
  (if magnitude < 2 ^ 52 then magnitude else 2 ^ 52 + magnitude % 2 ^ 52) *
    2 ^ (max (magnitude / 2 ^ 52) 1 - 1)

/-! ## Magnitudes and numbers -/

/-- Below twice the least normal magnitude a magnitude is its own weight. -/
theorem weight_of_lt {magnitude : Nat} (small : magnitude < 2 ^ 53) :
    weight magnitude = magnitude := by
  have scale : max (magnitude / 2 ^ 52) 1 - 1 = 0 := by omega
  unfold weight
  rw [scale, Nat.pow_zero, Nat.mul_one]
  split <;> omega

theorem weight_of_normal (scale : Nat) {fraction : Nat} (fits : fraction < 2 ^ 52) :
    weight ((scale + 1) * 2 ^ 52 + fraction) = (2 ^ 52 + fraction) * 2 ^ scale := by
  have quotient : ((scale + 1) * 2 ^ 52 + fraction) / 2 ^ 52 = scale + 1 := by omega
  have remainder : ((scale + 1) * 2 ^ 52 + fraction) % 2 ^ 52 = fraction := by omega
  unfold weight
  rw [quotient, remainder, if_neg (by omega), max_eq_left (Nat.le_add_left 1 scale),
    Nat.add_sub_cancel]

/-- The next magnitude is the next fraction, or the first one at the next scale. -/
theorem weight_lt_succ (magnitude : Nat) : weight magnitude < weight (magnitude + 1) := by
  by_cases small : magnitude + 1 < 2 ^ 53
  · rw [weight_of_lt small, weight_of_lt (by omega)]
    exact Nat.lt_succ_self magnitude
  · obtain ⟨scale, fraction, fits, rfl⟩ : ∃ scale fraction, fraction < 2 ^ 52 ∧
        magnitude = (scale + 1) * 2 ^ 52 + fraction :=
      ⟨magnitude / 2 ^ 52 - 1, magnitude % 2 ^ 52, by omega, by omega⟩
    rw [weight_of_normal scale fits]
    by_cases last : fraction + 1 = 2 ^ 52
    · have next : (scale + 1) * 2 ^ 52 + fraction + 1 =
          (scale + 1 + 1) * 2 ^ 52 + 0 := by omega
      rw [next, weight_of_normal (scale + 1) (by omega)]
      calc (2 ^ 52 + fraction) * 2 ^ scale
          < (2 ^ 52 * 2) * 2 ^ scale :=
            Nat.mul_lt_mul_of_pos_right (by omega) (Nat.two_pow_pos scale)
        _ = (2 ^ 52 + 0) * 2 ^ (scale + 1) := by rw [Nat.pow_succ']; ring
    · rw [Nat.add_assoc, weight_of_normal scale (by omega)]
      exact Nat.mul_lt_mul_of_pos_right (by omega) (Nat.two_pow_pos scale)

theorem weight_strictMono : StrictMono weight :=
  strictMono_nat_of_lt_succ weight_lt_succ

theorem weight_eq_zero_iff {magnitude : Nat} : weight magnitude = 0 ↔ magnitude = 0 := by
  have none : weight 0 = 0 := weight_of_lt (Nat.two_pow_pos 53)
  rw [← none, weight_strictMono.injective.eq_iff, none]

/-- How often the least positive number goes into a number. -/
def multiple (x : Binary64) : ℤ :=
  if x.isNegative then -weight x.magnitude else weight x.magnitude

variable {x y : Binary64}

theorem natAbs_multiple (x : Binary64) : x.multiple.natAbs = weight x.magnitude := by
  unfold multiple
  split <;> omega

theorem multiple_eq_zero_iff : x.multiple = 0 ↔ x.magnitude = 0 := by
  rw [← Int.natAbs_eq_zero, natAbs_multiple, weight_eq_zero_iff]

theorem multiple_eq_neg (sign : x.isNegative ≠ y.isNegative) (size : x.magnitude = y.magnitude) :
    y.multiple = -x.multiple := by
  unfold multiple
  cases left : x.isNegative <;> cases right : y.isNegative <;> simp_all

theorem number_eq_multiple (x : Binary64) : x.number = x.multiple * 2 ^ (-1074 : ℤ) := by
  have scale : x.exponent = ((max (x.magnitude / 2 ^ 52) 1 - 1 : Nat) : ℤ) + -1074 := by
    simp only [exponent, Nat.pow_eq]
    omega
  have size : (x.significand : ℚ) * 2 ^ x.exponent = weight x.magnitude * 2 ^ (-1074 : ℤ) := by
    unfold weight significand
    simp only [Nat.pow_eq]
    rw [scale, zpow_add₀ two_ne_zero, zpow_natCast, Nat.cast_mul, Nat.cast_pow, mul_assoc]
    rfl
  unfold number multiple
  rw [mul_assoc, size]
  split
  · rw [Int.cast_neg, Int.cast_natCast, neg_one_mul, neg_mul]
  · rw [Int.cast_natCast, one_mul]

/-- A bit pattern is a sign and a magnitude. -/
theorem eq_of_parts (sign : x.isNegative = y.isNegative) (size : x.magnitude = y.magnitude) :
    x = y := by
  obtain ⟨xBits⟩ := x
  obtain ⟨yBits⟩ := y
  have xBound := xBits.toNat_lt
  have yBound := yBits.toNat_lt
  simp only [isNegative, magnitude, Nat.pow_eq, decide_eq_decide] at sign size
  rw [mk.injEq, ← UInt64.toNat_inj]
  omega

/-- **A number determines its bit pattern up to the sign of zero.** -/
theorem number_eq_iff : x.number = y.number ↔ x = y ∨ (x.magnitude = 0 ∧ y.magnitude = 0) := by
  have unit : (2 : ℚ) ^ (-1074 : ℤ) ≠ 0 := zpow_ne_zero _ two_ne_zero
  rw [number_eq_multiple, number_eq_multiple, mul_left_inj' unit, Int.cast_inj]
  constructor
  · intro same
    have size : x.magnitude = y.magnitude := by
      apply weight_strictMono.injective
      rw [← natAbs_multiple, same, natAbs_multiple]
    by_cases sign : x.isNegative = y.isNegative
    · exact .inl (eq_of_parts sign size)
    · have opposite := multiple_eq_neg sign size
      have nothing : x.multiple = 0 := by omega
      have zero := multiple_eq_zero_iff.mp nothing
      exact .inr ⟨zero, size ▸ zero⟩
  · rintro (rfl | ⟨left, right⟩)
    · rfl
    · rw [multiple_eq_zero_iff.mpr left, multiple_eq_zero_iff.mpr right]

/-! ## Comparisons -/

/-- **The comparison of the standard compares numbers**, and no NaN equals anything. -/
theorem ieeeEq_iff_number_eq :
    x.ieeeEq y = true ↔ x.isNaN = false ∧ y.isNaN = false ∧ x.number = y.number := by
  simp [ieeeEq, number_eq_iff, and_assoc]

theorem isNaN_of_magnitude (zero : x.magnitude = 0) : x.isNaN = false := by
  simp [isNaN, zero]

theorem canonical_eq_iff :
    x.canonical = y.canonical ↔ x = y ∨ (x.magnitude = 0 ∧ y.magnitude = 0) := by
  have zero : (⟨0⟩ : Binary64).magnitude = 0 := rfl
  unfold canonical
  constructor
  · intro same
    by_cases left : x.magnitude = 0 <;> by_cases right : y.magnitude = 0
    · exact .inr ⟨left, right⟩
    · rw [if_pos left, if_neg right] at same
      exact (right (same ▸ zero)).elim
    · rw [if_neg left, if_pos right] at same
      exact (left (same ▸ zero)).elim
    · rw [if_neg left, if_neg right] at same
      exact .inl same
  · rintro (rfl | ⟨left, right⟩)
    · rfl
    · rw [if_pos left, if_pos right]

/-- Equal bits or equal numbers are equal bits but for the sign of zero. -/
theorem eq_or_ieeeEq_iff : (x == y || x.ieeeEq y) = true ↔ x.canonical = y.canonical := by
  rw [Bool.or_eq_true, beq_iff_eq, ieeeEq_iff_number_eq, number_eq_iff, canonical_eq_iff]
  constructor
  · rintro (same | ⟨-, -, same⟩)
    · exact .inl same
    · exact same
  · rintro (same | zeros)
    · exact .inl same
    · exact .inr ⟨isNaN_of_magnitude zeros.1, isNaN_of_magnitude zeros.2, .inr zeros⟩

end RecordMapping.Binary64
