import RecordMapping.Bytes.Endian
import RecordMapping.Key.Token
import RecordMapping.Value.Field

/-!
# Writing MessagePack

Numbers and headers take the shortest form that holds them; whole numbers that are not negative
take the unsigned forms. A field value is a one-entry map from the name of its variant, and null is
a plain text.
-/

namespace RecordMapping.MessagePack

/-- A whole number that is not negative. -/
def unsigned (value : Nat) : List UInt8 :=
  if value < 0x80 then [UInt8.ofNat value]
  else if value < 0x100 then [0xCC, UInt8.ofNat value]
  else if value < 0x10000 then 0xCD :: Bytes.bigEndian 2 value
  else if value < 0x100000000 then 0xCE :: Bytes.bigEndian 4 value
  else 0xCF :: Bytes.bigEndian 8 value

/-- A whole number of 64 bits. -/
def signed (value : Int64) : List UInt8 :=
  let bits := value.toUInt64.toNat
  if 0 ≤ value.toInt then unsigned bits
  else if -0x20 ≤ value.toInt then [UInt8.ofNat bits]
  else if -0x80 ≤ value.toInt then [0xD0, UInt8.ofNat bits]
  else if -0x8000 ≤ value.toInt then 0xD1 :: Bytes.bigEndian 2 bits
  else if -0x80000000 ≤ value.toInt then 0xD2 :: Bytes.bigEndian 4 bits
  else 0xD3 :: Bytes.bigEndian 8 bits

/-- A float of 64 bits. -/
def float (value : Binary64) : List UInt8 :=
  0xCB :: Bytes.bigEndian 8 value.bits.toNat

/-- The header of a text with the given count of bytes. -/
def textHeader (length : Nat) : List UInt8 :=
  if length < 0x20 then [UInt8.ofNat (0xA0 + length)]
  else if length < 0x100 then [0xD9, UInt8.ofNat length]
  else if length < 0x10000 then 0xDA :: Bytes.bigEndian 2 length
  else 0xDB :: Bytes.bigEndian 4 length

/-- The header of an array with the given count of items. -/
def arrayHeader (length : Nat) : List UInt8 :=
  if length < 0x10 then [UInt8.ofNat (0x90 + length)]
  else if length < 0x10000 then 0xDC :: Bytes.bigEndian 2 length
  else 0xDD :: Bytes.bigEndian 4 length

/-- The header of a map with fewer than sixteen entries. -/
def mapHeader (length : Nat) : List UInt8 :=
  [UInt8.ofNat (0x80 + length)]

/-- A text. -/
def text (value : String) : List UInt8 :=
  let bytes := value.toUTF8.data.toList
  textHeader bytes.length ++ bytes

/-- An identity of an object, as sixteen raw bytes. -/
def identity (id : Identity) : List UInt8 :=
  0xC4 :: 16 :: Bytes.bigEndian 16 id.bits.toNat

/-- A reference to an object. -/
def object (value : Reference) : List UInt8 :=
  mapHeader 2 ++ text "id" ++ identity value.id ++ text "class" ++ text value.className

/-- A variant with its content. -/
def variant (name : String) (content : List UInt8) : List UInt8 :=
  mapHeader 1 ++ text name ++ content

mutual

/-- A field value. -/
def encode : FieldValue → List UInt8
  | .null => text "Null"
  | .bool value => variant "Bool" [if value then 0xC3 else 0xC2]
  | .int value => variant "Int" (signed value)
  | .float value => variant "Float" (float value)
  | .text value => variant "Text" (text value)
  | .bytes value =>
      variant "Bytes" (arrayHeader value.length ++ value.flatMap fun byte => unsigned byte.toNat)
  | .dateTime value => variant "DateTime" (text (value.text "Z"))
  | .key value => variant "Key" (text value.token)
  | .tracked inner => variant "Tracked" (encode inner)
  | .list items => variant "List" (arrayHeader items.length ++ encodeItems items)
  | .object value => variant "Object" (object value)
  | .embedded values => variant "Embedded" (arrayHeader values.length ++ encodeItems values)

/-- The items of a list, one after the other. -/
def encodeItems : List FieldValue → List UInt8
  | [] => []
  | item :: rest => encode item ++ encodeItems rest

end

end RecordMapping.MessagePack
