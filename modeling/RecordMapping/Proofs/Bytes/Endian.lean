import Mathlib.Algebra.Group.Nat.Defs
import RecordMapping.Bytes.Endian

/-!
# Numbers of a fixed width

A number that fits in a width is read back from its bytes, and bytes are the only ones of their
count that are read as their number.
-/

namespace RecordMapping.Bytes

theorem length_littleEndian (width value : Nat) : (littleEndian width value).length = width := by
  induction width generalizing value with
  | zero => rfl
  | succ width ih => simp [littleEndian, ih]

/-- A number that fits in the given width is read back. -/
theorem ofLittleEndian_littleEndian (width value : Nat) (fits : value < 256 ^ width) :
    ofLittleEndian (littleEndian width value) = value := by
  induction width generalizing value with
  | zero => simp at fits; simp [littleEndian, ofLittleEndian, fits]
  | succ width ih =>
      have quotient : value / 256 < 256 ^ width := by
        rw [Nat.pow_succ] at fits
        omega
      simp only [littleEndian, ofLittleEndian, ih _ quotient, UInt8.toNat_ofNat']
      omega

theorem ofLittleEndian_lt (bytes : List UInt8) : ofLittleEndian bytes < 256 ^ bytes.length := by
  induction bytes with
  | nil => simp [ofLittleEndian]
  | cons byte rest ih =>
      have bound := byte.toNat_lt
      simp only [ofLittleEndian, List.length_cons, Nat.pow_succ]
      omega

/-- The bytes of a number are the only ones of their count that are read as it. -/
theorem littleEndian_ofLittleEndian (bytes : List UInt8) :
    littleEndian bytes.length (ofLittleEndian bytes) = bytes := by
  induction bytes with
  | nil => rfl
  | cons byte rest ih =>
      have bound := byte.toNat_lt
      have low : UInt8.ofNat (byte.toNat + 256 * ofLittleEndian rest) = byte := by
        rw [← UInt8.toNat_inj, UInt8.toNat_ofNat']
        omega
      have high : (byte.toNat + 256 * ofLittleEndian rest) / 256 = ofLittleEndian rest := by omega
      rw [ofLittleEndian, List.length_cons, littleEndian, low, high, ih]

/-- The bytes of a number in a width keep what the number leaves when the width is divided out. -/
theorem ofLittleEndian_littleEndian_mod (width value : Nat) :
    ofLittleEndian (littleEndian width value) = value % 256 ^ width := by
  induction width generalizing value with
  | zero => simp [littleEndian, ofLittleEndian, Nat.mod_one]
  | succ width ih =>
      have split : 256 ^ (width + 1) = 256 * 256 ^ width := Nat.pow_succ'
      rw [split, Nat.mod_mul, littleEndian, ofLittleEndian, ih, UInt8.toNat_ofNat']

theorem length_bigEndian (width value : Nat) : (bigEndian width value).length = width := by
  rw [bigEndian, List.length_reverse, length_littleEndian]

theorem ofLittleEndian_reverse_bigEndian (width value : Nat) :
    ofLittleEndian (bigEndian width value).reverse = value % 256 ^ width := by
  rw [bigEndian, List.reverse_reverse, ofLittleEndian_littleEndian_mod]

end RecordMapping.Bytes
