import RecordMapping.MessagePack.Writer
import RecordMapping.Schema.Field
import RecordMapping.Value.Storage

/-!
# From field values to stored values

`Conversion.stored` keeps the shape of a value and takes its wrappers off at every depth; objects
have no stored form. Only at the top is text checked for its length. `Conversion.packed` packs
a whole value into bytes instead.
-/

namespace RecordMapping

/-- How the values of basic fields are stored. -/
structure Conversion where
  /-- The greatest count of bytes that a text in the index may have. -/
  textLimit : UInt64 := 1500
  /-- Packs the value of a field into bytes. -/
  pack : Field → FieldValue → Outcome (List UInt8) :=
    fun _ value => .ok (MessagePack.encode value)

namespace Conversion

/-- A text that is not part of a list, kept out of the index if it is large or said to be. -/
def storedText (conversion : Conversion) (field : Field) (text : String) : Value :=
  if field.isLargeText ∨ conversion.textLimit.toNat < text.utf8ByteSize then
    .longText text
  else .text text

mutual

/-- The stored form of an item of a list. -/
def storedItem (field : Field) : FieldValue → Outcome Value
  | .null => .ok .null
  | .bool value => .ok (.boolean value)
  | .int value => .ok (.integer value)
  | .float value => .ok (.float value)
  | .text value => .ok (.text value)
  | .bytes value => .ok (.blob value)
  | .dateTime value => .ok (.timestamp value)
  | .key value => .ok (.key value)
  | .tracked inner => storedItem field inner
  | .list items => do return .list (← storedItems field items)
  | .object _ => .error (field.unsupported (.notBasic "object"))
  | .embedded _ => .error (field.unsupported (.notBasic "embedded"))

/-- The stored forms of the items of a list. -/
def storedItems (field : Field) : List FieldValue → Outcome (List Value)
  | [] => .ok []
  | item :: rest => do
      let stored ← storedItem field item
      return stored :: (← storedItems field rest)

end

/-- The stored form of the value of a basic field. -/
def stored (conversion : Conversion) (field : Field) (value : FieldValue) : Outcome Value :=
  match value.bare with
  | .text text => .ok (conversion.storedText field text)
  | value => storedItem field value

/-- The stored form of the value of a packed field; null stays null. -/
def packed (conversion : Conversion) (field : Field) (value : FieldValue) : Outcome Value :=
  match value.bare with
  | .null => .ok .null
  | value => do return .blob (← conversion.pack field value)

end Conversion

end RecordMapping
