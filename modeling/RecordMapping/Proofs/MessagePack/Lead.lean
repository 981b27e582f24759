import RecordMapping.MessagePack.Writer
import RecordMapping.Proofs.Bytes.Endian

/-!
# Forms that announce their length

The first byte of a MessagePack number or header says how many bytes follow it
(`MessagePack.width`), and the value is read from these bytes or, where none follow, from the first
byte itself. So such a form tells its value, and where it ends, whatever comes behind it.
-/

namespace RecordMapping.MessagePack

variable {α : Type} {form otherForm rest otherRest body : List UInt8} {lead : UInt8}
  {read : UInt8 → List UInt8 → α} {value other : α}

/-- The count of bytes that a first byte announces. -/
def width (lead : UInt8) : Nat :=
  if lead = 0xCC ∨ lead = 0xD0 ∨ lead = 0xD9 then 1
  else if lead = 0xCD ∨ lead = 0xD1 ∨ lead = 0xDA ∨ lead = 0xDC then 2
  else if lead = 0xCE ∨ lead = 0xD2 ∨ lead = 0xDB ∨ lead = 0xDD then 4
  else if lead = 0xCB ∨ lead = 0xCF ∨ lead = 0xD3 then 8
  else 0

/-- The first bytes from which none follow. -/
theorem width_eq_zero (outside : lead.toNat < 0xCB ∨ 0xDE ≤ lead.toNat) : width lead = 0 := by
  have differs {other : UInt8} (inside : 0xCB ≤ other.toNat ∧ other.toNat < 0xDE) :
      lead ≠ other := by
    rintro rfl
    omega
  simp [width, differs]

/-- Whether a form is a first byte with the bytes that it announces, and is read as a value. -/
def Announces (read : UInt8 → List UInt8 → α) (form : List UInt8) (value : α) : Prop :=
  ∃ lead body, form = lead :: body ∧ body.length = width lead ∧ read lead body = value

/-- **A form that announces its length is told from what follows it.** -/
theorem Announces.append_inj (announced : Announces read form value)
    (otherAnnounced : Announces read otherForm other)
    (same : form ++ rest = otherForm ++ otherRest) : value = other ∧ rest = otherRest := by
  obtain ⟨lead, body, rfl, length, rfl⟩ := announced
  obtain ⟨otherLead, otherBody, rfl, otherLength, rfl⟩ := otherAnnounced
  obtain ⟨rfl, tails⟩ := List.cons.inj same
  obtain ⟨rfl, rests⟩ := List.append_inj tails (length.trans otherLength.symm)
  exact ⟨rfl, rests⟩

theorem announces_short (bare : width lead = 0) (reads : read lead [] = value) :
    Announces read [lead] value :=
  ⟨lead, [], rfl, bare.symm, reads⟩

theorem announces_long (lead : UInt8) {count : Nat}
    (reads : read lead (Bytes.bigEndian (width lead) count) = value) :
    Announces read (lead :: Bytes.bigEndian (width lead) count) value :=
  ⟨lead, _, rfl, Bytes.length_bigEndian _ _, reads⟩

/-! ## Counts -/

/-- A count is the first byte without its mark, or spelled out behind it. -/
def readCount (mark : Nat) (lead : UInt8) (body : List UInt8) : Nat :=
  if width lead = 0 then lead.toNat - mark else Bytes.ofLittleEndian body.reverse

theorem toNat_mark (mark : Nat) {count : Nat} (fits : mark + count < 0xCB) :
    (UInt8.ofNat (mark + count)).toNat = mark + count :=
  UInt8.toNat_ofNat_of_lt' (by change _ < 256; omega)

theorem announces_mark {mark count : Nat} (fits : mark + count < 0xCB) :
    Announces (readCount mark) [UInt8.ofNat (mark + count)] count := by
  have lead := toNat_mark mark fits
  have bare : width (UInt8.ofNat (mark + count)) = 0 := width_eq_zero (by omega)
  apply announces_short bare
  rw [readCount, if_pos bare, lead]
  omega

theorem readCount_bigEndian {mark count : Nat} (wide : width lead ≠ 0)
    (fits : count < 256 ^ width lead) :
    readCount mark lead (Bytes.bigEndian (width lead) count) = count := by
  rw [readCount, if_neg wide, Bytes.ofLittleEndian_reverse_bigEndian, Nat.mod_eq_of_lt fits]

theorem textHeader_announces {length : Nat} (fits : length < 2 ^ 32) :
    Announces (readCount 0xA0) (textHeader length) length := by
  unfold textHeader
  split
  case isTrue => exact announces_mark (by omega)
  split
  case isTrue byte =>
    exact announces_long 0xD9 (readCount_bigEndian (by decide) byte)
  split
  case isTrue small =>
    exact announces_long 0xDA (readCount_bigEndian (by decide) small)
  case isFalse => exact announces_long 0xDB (readCount_bigEndian (by decide) fits)

theorem arrayHeader_announces {length : Nat} (fits : length < 2 ^ 32) :
    Announces (readCount 0x90) (arrayHeader length) length := by
  unfold arrayHeader
  split
  case isTrue => exact announces_mark (by omega)
  split
  case isTrue small =>
    exact announces_long 0xDC (readCount_bigEndian (by decide) small)
  case isFalse => exact announces_long 0xDD (readCount_bigEndian (by decide) fits)

/-! ## Whole numbers -/

/-- A whole number is a count, unless its first byte is one of those for negative numbers. These
are written as what they leave above the least power of 256 that their bytes cannot reach. -/
def readWhole (lead : UInt8) (body : List UInt8) : Int :=
  if 0xE0 ≤ lead.toNat then lead.toNat - 0x100
  else if 0xD0 ≤ lead.toNat then Bytes.ofLittleEndian body.reverse - (256 ^ width lead : Nat)
  else readCount 0 lead body

theorem readWhole_of_lt (low : lead.toNat < 0xD0) : readWhole lead body = readCount 0 lead body := by
  rw [readWhole, if_neg (by omega), if_neg (by omega)]

theorem unsigned_announces {value : Nat} (fits : value < 2 ^ 64) :
    Announces readWhole (unsigned value) value := by
  have long (lead : UInt8) (low : lead.toNat < 0xD0) (wide : width lead ≠ 0)
      (fits : value < 256 ^ width lead) :
      Announces readWhole (lead :: Bytes.bigEndian (width lead) value) value := by
    apply announces_long lead
    rw [readWhole_of_lt low, readCount_bigEndian wide fits]
  unfold unsigned
  split
  case isTrue short =>
    have lead : (UInt8.ofNat (0 + value)).toNat = 0 + value := toNat_mark 0 (by omega)
    rw [Nat.zero_add] at lead
    have bare : width (UInt8.ofNat value) = 0 := width_eq_zero (by omega)
    apply announces_short bare
    rw [readWhole_of_lt (by omega), readCount, if_pos bare, lead]
    rfl
  split
  case isTrue byte => exact long 0xCC (by decide) (by decide) byte
  split
  case isTrue small => exact long 0xCD (by decide) (by decide) small
  split
  case isTrue large => exact long 0xCE (by decide) (by decide) large
  case isFalse => exact long 0xCF (by decide) (by decide) fits

/-- The bits of a negative number are what it leaves below the first number with more bits. -/
theorem toNat_toUInt64 (value : Int64) :
    (value.toUInt64.toNat : Int) =
      if 0 ≤ value.toInt then value.toInt else value.toInt + (2 ^ 64 : Nat) := by
  have bits : value.toUInt64.toNat = value.toBitVec.toNat := rfl
  have bound := value.toUInt64.toNat_lt
  rw [← Int64.toInt_toBitVec, BitVec.toInt_eq_toNat_cond, bits] at *
  split <;> split <;> omega

theorem signed_announces (value : Int64) : Announces readWhole (signed value) value.toInt := by
  have bits := toNat_toUInt64 value
  have least := value.le_toInt
  unfold signed
  simp only
  split
  case isTrue positive =>
    rw [if_pos positive] at bits
    rw [← bits]
    exact unsigned_announces value.toUInt64.toNat_lt
  case isFalse negative =>
    rw [if_neg negative] at bits
    have long (lead : UInt8) (high : 0xD0 ≤ lead.toNat ∧ lead.toNat < 0xE0)
        (reaches : (value.toUInt64.toNat % 256 ^ width lead : Nat) - ((256 ^ width lead : Nat) : Int) =
          value.toInt) :
        Announces readWhole (lead :: Bytes.bigEndian (width lead) value.toUInt64.toNat)
          value.toInt := by
      apply announces_long lead
      rw [readWhole, if_neg (by omega), if_pos high.1, Bytes.ofLittleEndian_reverse_bigEndian,
        reaches]
    split
    case isTrue short =>
      have lead : (UInt8.ofNat value.toUInt64.toNat).toNat = value.toUInt64.toNat % 256 :=
        UInt8.toNat_ofNat'
      have bare : width (UInt8.ofNat value.toUInt64.toNat) = 0 := width_eq_zero (by omega)
      apply announces_short bare
      rw [readWhole, if_pos (by omega), lead]
      omega
    split
    case isTrue byte =>
      apply long 0xD0 (by decide)
      change ((value.toUInt64.toNat % 256 : Nat) : Int) - 256 = _
      omega
    split
    case isTrue small =>
      apply long 0xD1 (by decide)
      change ((value.toUInt64.toNat % 65536 : Nat) : Int) - 65536 = _
      omega
    split
    case isTrue large =>
      apply long 0xD2 (by decide)
      change ((value.toUInt64.toNat % 4294967296 : Nat) : Int) - 4294967296 = _
      omega
    case isFalse =>
      apply long 0xD3 (by decide)
      change ((value.toUInt64.toNat % 18446744073709551616 : Nat) : Int) - 18446744073709551616 = _
      omega

end RecordMapping.MessagePack
