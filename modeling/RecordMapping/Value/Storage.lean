import RecordMapping.Key.Basic
import RecordMapping.Number.Layout
import RecordMapping.Time.Timestamp

/-!
# Stored values

`Value` is what a property of a record can hold. Two values are compared by `Value.same`, for which
a number that is not a number is the same as itself, so that storing a value again is no change.
-/

namespace RecordMapping

/-- A value as the store keeps it. -/
inductive Value where
  | null
  | boolean (value : Bool)
  | integer (value : Int64)
  | float (value : Binary64)
  | text (value : String)
  /-- Text that is kept out of the index. -/
  | longText (value : String)
  | blob (bytes : List UInt8)
  | timestamp (value : Timestamp)
  | key (value : Key)
  | list (items : List Value)

namespace Value

/-- The name of the value's type. -/
def typeLabel : Value → String
  | .null => "NULL"
  | .boolean _ => "BOOLEAN"
  | .integer _ => "INTEGER"
  | .float _ => "FLOAT"
  | .text _ => "TEXT"
  | .longText _ => "LONG_TEXT"
  | .blob _ => "BLOB"
  | .timestamp _ => "TIMESTAMP"
  | .key _ => "KEY"
  | .list _ => "LIST"

def isNull : Value → Bool
  | .null => true
  | _ => false

/-- The key that the value is, if it is one. -/
def key? : Value → Option Key
  | .key value => some value
  | _ => none

/-- The text that the value is, long or not, if it is one. -/
def text? : Value → Option String
  | .text value => some value
  | .longText value => some value
  | _ => none

/-- The items of the value, if it is a list. -/
def items? : Value → Option (List Value)
  | .list items => some items
  | _ => none

/-- Values that the store never indexes. -/
def isUnindexable : Value → Bool
  | .longText _ => true
  | .blob _ => true
  | _ => false

/-- The list of some keys. -/
def ofKeys (keys : List Key) : Value :=
  .list (keys.map .key)

mutual

/-- Whether two values count as the same. Floats do when their bits agree or when they compare as
equal, everything else when it is equal. -/
def same : Value → Value → Bool
  | .null, .null => true
  | .boolean a, .boolean b => a == b
  | .integer a, .integer b => a == b
  | .float a, .float b => a == b || a.ieeeEq b
  | .text a, .text b => a == b
  | .longText a, .longText b => a == b
  | .blob a, .blob b => a == b
  | .timestamp a, .timestamp b => a == b
  | .key a, .key b => a == b
  | .list a, .list b => sameItems a b
  | _, _ => false

/-- Whether two lists have the same values in the same order. -/
def sameItems : List Value → List Value → Bool
  | [], [] => true
  | a :: as, b :: bs => same a b && sameItems as bs
  | _, _ => false

end

instance : BEq Value := ⟨same⟩

instance : Inhabited Value := ⟨.null⟩

/-- Floats in messages: never an exponent, no point in whole numbers, ties away from zero. -/
def floatLayout : Layout := ⟨.up, "", none, ""⟩

/-- A float as it is written in messages. -/
def floatText (x : Binary64) : String :=
  if x.isNaN then "NaN"
  else if x.isInfinite then (if x.isNegative then "-inf" else "inf")
  else floatLayout.text x

mutual

/-- The value as it is written in messages. -/
def display : Value → String
  | .null => "NULL"
  | .boolean value => if value then "true" else "false"
  | .integer value => toString value.toInt
  | .float value => floatText value
  | .text value => value
  | .longText value => s!"<text: {value.utf8ByteSize} bytes>"
  | .blob bytes => s!"<blob: {bytes.length} bytes>"
  | .timestamp value => value.text "+00:00"
  | .key value => value.display
  | .list items => "[" ++ ", ".intercalate (displayItems items) ++ "]"

/-- The items of a list as they are written in messages. -/
def displayItems : List Value → List String
  | [] => []
  | item :: rest => display item :: displayItems rest

end

end Value

end RecordMapping
