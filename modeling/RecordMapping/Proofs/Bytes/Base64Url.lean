import RecordMapping.Bytes.Base64Url
import RecordMapping.Text.Blank

/-!
# Base64 as a bijection

Reading undoes writing, and what can be read was written: `decode?_eq_some_iff`. So every list of
bytes has one spelling, and no text is accepted in a second one. A spelling has no blanks.
-/

namespace RecordMapping.Bytes.Base64Url

theorem value?_digit {value : Nat} (small : value < 64) : value? (digit value) = some value := by
  have table : ∀ index : Fin 64, value? (digit index) = some index.val := by decide
  exact table ⟨value, small⟩

/-- A character of the alphabet stands for a six-bit number, and is the digit of that number. -/
theorem eq_digit_of_value? {c : Char} {value : Nat} (found : value? c = some value) :
    value < 64 ∧ c = digit value := by
  have back (offset : Nat) (above : offset ≤ c.toNat) :
      Char.ofNat (offset + (c.toNat - offset)) = c := by
    rw [Nat.add_sub_of_le above, Char.ofNat_toNat]
  simp only [value?] at found
  split at found
  case isTrue upper =>
    obtain rfl := Option.some.inj found
    refine ⟨by omega, ?_⟩
    rw [digit, if_pos (by omega), back 0x41 upper.1]
  split at found
  case isTrue lower =>
    obtain rfl := Option.some.inj found
    refine ⟨by omega, ?_⟩
    rw [digit, if_neg (by omega), if_pos (by omega), Nat.add_sub_cancel, back 0x61 lower.1]
  split at found
  case isTrue number =>
    obtain rfl := Option.some.inj found
    refine ⟨by omega, ?_⟩
    rw [digit, if_neg (by omega), if_neg (by omega), if_pos (by omega), Nat.add_sub_cancel,
      back 0x30 number.1]
  split at found
  case isTrue hyphen =>
    obtain rfl := Option.some.inj found
    exact ⟨by decide, hyphen⟩
  split at found
  case isTrue underscore =>
    obtain rfl := Option.some.inj found
    exact ⟨by decide, underscore⟩
  case isFalse => contradiction

theorem decode?_encode (bytes : List UInt8) : decode? (encode bytes) = some bytes := by
  induction bytes using encode.induct with
  | case1 => rfl
  | case2 a =>
      have bound := a.toNat_lt
      have high : a.toNat / 4 * 4 + a.toNat % 4 * 16 / 16 = a.toNat := by omega
      simp only [encode, decode?, value?_digit (show a.toNat / 4 < 64 by omega),
        value?_digit (show a.toNat % 4 * 16 < 64 by omega), Option.bind_eq_bind, Option.bind_some,
        high, UInt8.ofNat_toNat, Nat.mul_mod_left, ↓reduceIte]
  | case3 a b =>
      have bound := a.toNat_lt
      have bound' := b.toNat_lt
      have high : a.toNat / 4 * 4 + (a.toNat % 4 * 16 + b.toNat / 16) / 16 = a.toNat := by omega
      have low : (a.toNat % 4 * 16 + b.toNat / 16) % 16 * 16 + b.toNat % 16 * 4 / 4 = b.toNat := by
        omega
      simp only [encode, decode?, value?_digit (show a.toNat / 4 < 64 by omega),
        value?_digit (show a.toNat % 4 * 16 + b.toNat / 16 < 64 by omega),
        value?_digit (show b.toNat % 16 * 4 < 64 by omega), Option.bind_eq_bind, Option.bind_some,
        high, low, UInt8.ofNat_toNat, Nat.mul_mod_left, ↓reduceIte]
  | case4 a b c rest ih =>
      have bound := a.toNat_lt
      have bound' := b.toNat_lt
      have bound'' := c.toNat_lt
      have high : a.toNat / 4 * 4 + (a.toNat % 4 * 16 + b.toNat / 16) / 16 = a.toNat := by omega
      have middle : (a.toNat % 4 * 16 + b.toNat / 16) % 16 * 16 +
          (b.toNat % 16 * 4 + c.toNat / 64) / 4 = b.toNat := by omega
      have low : (b.toNat % 16 * 4 + c.toNat / 64) % 4 * 64 + c.toNat % 64 = c.toNat := by omega
      simp only [encode, decode?, value?_digit (show a.toNat / 4 < 64 by omega),
        value?_digit (show a.toNat % 4 * 16 + b.toNat / 16 < 64 by omega),
        value?_digit (show b.toNat % 16 * 4 + c.toNat / 64 < 64 by omega),
        value?_digit (show c.toNat % 64 < 64 by omega), Option.bind_eq_bind, Option.bind_some, ih,
        high, middle, low, UInt8.ofNat_toNat]

private theorem toNat_ofNat_of_lt {value : Nat} (small : value < 256) :
    (UInt8.ofNat value).toNat = value := by
  rw [UInt8.toNat_ofNat', Nat.mod_eq_of_lt small]

/-- The six-bit numbers of a group can be read off the bytes that are made of them, whose unused
bits the reader has found to be zero. -/
theorem encode_of_decode? {text : List Char} {bytes : List UInt8}
    (read : decode? text = some bytes) : text = encode bytes := by
  induction text using decode?.induct generalizing bytes with
  | case1 =>
      obtain rfl := Option.some.inj read
      rfl
  | case2 => contradiction
  | case3 w x =>
      simp only [decode?, Option.bind_eq_bind, Option.bind_eq_some_iff] at read
      obtain ⟨first, wRead, second, xRead, read⟩ := read
      obtain ⟨firstSmall, rfl⟩ := eq_digit_of_value? wRead
      obtain ⟨secondSmall, rfl⟩ := eq_digit_of_value? xRead
      split at read
      case isFalse => contradiction
      obtain rfl := Option.some.inj read
      have one : (first * 4 + second / 16) / 4 = first := by omega
      have two : (first * 4 + second / 16) % 4 * 16 = second := by omega
      rw [encode, toNat_ofNat_of_lt (by omega), one, two]
  | case4 w x y =>
      simp only [decode?, Option.bind_eq_bind, Option.bind_eq_some_iff] at read
      obtain ⟨first, wRead, second, xRead, third, yRead, read⟩ := read
      obtain ⟨firstSmall, rfl⟩ := eq_digit_of_value? wRead
      obtain ⟨secondSmall, rfl⟩ := eq_digit_of_value? xRead
      obtain ⟨thirdSmall, rfl⟩ := eq_digit_of_value? yRead
      split at read
      case isFalse => contradiction
      obtain rfl := Option.some.inj read
      have one : (first * 4 + second / 16) / 4 = first := by omega
      have two : (first * 4 + second / 16) % 4 * 16 + (second % 16 * 16 + third / 4) / 16 =
          second := by omega
      have three : (second % 16 * 16 + third / 4) % 16 * 4 = third := by omega
      rw [encode, toNat_ofNat_of_lt (by omega), toNat_ofNat_of_lt (by omega), one, two, three]
  | case5 w x y z rest ih =>
      simp only [decode?, Option.bind_eq_bind, Option.bind_eq_some_iff, Option.some.injEq] at read
      obtain ⟨first, wRead, second, xRead, third, yRead, fourth, zRead, tail, restRead, rfl⟩ := read
      obtain ⟨firstSmall, rfl⟩ := eq_digit_of_value? wRead
      obtain ⟨secondSmall, rfl⟩ := eq_digit_of_value? xRead
      obtain ⟨thirdSmall, rfl⟩ := eq_digit_of_value? yRead
      obtain ⟨fourthSmall, rfl⟩ := eq_digit_of_value? zRead
      have one : (first * 4 + second / 16) / 4 = first := by omega
      have two : (first * 4 + second / 16) % 4 * 16 + (second % 16 * 16 + third / 4) / 16 =
          second := by omega
      have three : (second % 16 * 16 + third / 4) % 16 * 4 + (third % 4 * 64 + fourth) / 64 =
          third := by omega
      have four : (third % 4 * 64 + fourth) % 64 = fourth := by omega
      rw [encode, toNat_ofNat_of_lt (by omega), toNat_ofNat_of_lt (by omega),
        toNat_ofNat_of_lt (by omega), one, two, three, four, ih restRead]

/-- **One spelling for each list of bytes.** -/
theorem decode?_eq_some_iff {text : List Char} {bytes : List UInt8} :
    decode? text = some bytes ↔ text = encode bytes :=
  ⟨encode_of_decode?, fun written => written ▸ decode?_encode bytes⟩

theorem not_isBlank_digit {value : Nat} (small : value < 64) :
    Text.isBlank (digit value) = false := by
  have table : ∀ index : Fin 64, Text.isBlank (digit index) = false := by decide
  exact table ⟨value, small⟩

/-- What is written has no blanks in it. -/
theorem not_isBlank_of_mem_encode {bytes : List UInt8} {c : Char} (member : c ∈ encode bytes) :
    Text.isBlank c = false := by
  induction bytes using encode.induct with
  | case1 => contradiction
  | case2 a =>
      have bound := a.toNat_lt
      simp only [encode, List.mem_cons, List.not_mem_nil, or_false] at member
      rcases member with rfl | rfl <;> exact not_isBlank_digit (by omega)
  | case3 a b =>
      have bound := a.toNat_lt
      have bound' := b.toNat_lt
      simp only [encode, List.mem_cons, List.not_mem_nil, or_false] at member
      rcases member with rfl | rfl | rfl <;> exact not_isBlank_digit (by omega)
  | case4 a b c rest ih =>
      have bound := a.toNat_lt
      have bound' := b.toNat_lt
      have bound'' := c.toNat_lt
      simp only [encode, List.mem_cons] at member
      rcases member with rfl | rfl | rfl | rfl | member
      case inr.inr.inr.inr => exact ih member
      all_goals exact not_isBlank_digit (by omega)

end RecordMapping.Bytes.Base64Url
