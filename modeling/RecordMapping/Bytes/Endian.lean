/-!
# Numbers as bytes

A number is laid out in a fixed count of bytes, least or most significant byte first. Numbers too
large for the count lose their high bytes.
-/

namespace RecordMapping.Bytes

/-- The low `width` bytes of a number, the least significant first. -/
def littleEndian : (width value : Nat) → List UInt8
  | 0, _ => []
  | width + 1, value => UInt8.ofNat value :: littleEndian width (value / 256)

/-- The number whose bytes are given, the least significant first. -/
def ofLittleEndian : List UInt8 → Nat
  | [] => 0
  | byte :: rest => byte.toNat + 256 * ofLittleEndian rest

/-- The low `width` bytes of a number, the most significant first. -/
def bigEndian (width value : Nat) : List UInt8 :=
  (littleEndian width value).reverse

end RecordMapping.Bytes
