import RecordMapping.Document.Reader
import RecordMapping.Key.Token
import RecordMapping.Object.Reading
import RecordMapping.Time.Reading
import RecordMapping.Value.Field

/-!
# Reading field values from JSON

A field value is read from the form in which `FieldValue.json` writes it. Arrays and objects may be
nested up to 127 levels deep.
-/

namespace RecordMapping

/-- The key that a document describes: a text that is its token. -/
def Key.ofDocument? : Document → Option Key
  | .text (some token) => (Key.ofToken token).toOption
  | _ => none

namespace FieldValue

/-- How deep arrays and objects may be nested. -/
def depthLimit : Nat := 127

/-- The whole number that a document is, if it lies within bounds. -/
def integerWithin? (least greatest : Int) : Document → Option Int
  | .number numeral => do
      let value ← numeral.integer?
      if least ≤ value ∧ value ≤ greatest then some value else none
  | _ => none

/-- The number of 64 bits that a document is. -/
def int64? (document : Document) : Option Int64 :=
  (integerWithin? Int64.minValue.toInt Int64.maxValue.toInt document).map Int64.ofInt

/-- The byte that a document is. -/
def byte? (document : Document) : Option UInt8 :=
  (integerWithin? 0 255 document).map fun value => UInt8.ofNat value.toNat

/-- The value of a variant without further values in it. -/
def ofScalar? (variant : String) (content : Document) : Option FieldValue :=
  match variant, content with
  | "Null", .null => some .null
  | "Bool", .bool value => some (.bool value)
  | "Int", content => (int64? content).map .int
  | "Float", .number numeral => numeral.binary64?.map .float
  | "Text", content => content.text?.map .text
  | "DateTime", content => (content.text?.bind Timestamp.ofText?).map .dateTime
  | "Key", content => (Key.ofDocument? content).map .key
  | _, _ => none

/-- The value that a document describes, with at most `depth` levels of arrays and objects. -/
def ofDocument? : (depth : Nat) → Document → Option FieldValue
  | _, .text (some "Null") => some .null
  | depth + 1, .object [(some variant, content)] =>
      match variant, content, depth with
      | "Tracked", content, depth => (ofDocument? depth content).map .tracked
      | "Bytes", .array items, _ + 1 => (items.mapM byte?).map .bytes
      | "List", .array items, depth + 1 => (items.mapM (ofDocument? depth)).map .list
      | "Embedded", .array values, depth + 1 => (values.mapM (ofDocument? depth)).map .embedded
      | "Object", content, _ + 1 => (Reference.ofDocument? content).map .object
      | variant, content, _ => ofScalar? variant content
  | _, _ => none

/-- The value that a text describes. -/
def ofText? (text : String) : Option FieldValue := do
  ofDocument? depthLimit (← Document.ofText? text)

end FieldValue

/-- The key that a text describes. -/
def Key.ofText? (text : String) : Option Key := do
  Key.ofDocument? (← Document.ofText? text)

end RecordMapping
