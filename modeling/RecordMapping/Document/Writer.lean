import RecordMapping.Key.Token
import RecordMapping.Number.Layout
import RecordMapping.Value.Field

/-!
# Writing JSON

Texts are quoted with the short escapes where there are any and `\u00..` for the other control
characters. A field value is a one-entry object that names its variant, and null is a plain text.
-/

namespace RecordMapping.Document.Writer

/-- The characters that stand for one character inside quotes. -/
def escape (c : Char) : List Char :=
  if c = '"' then ['\\', '"']
  else if c = '\\' then ['\\', '\\']
  else if c.toNat = 0x08 then ['\\', 'b']
  else if c.toNat = 0x0C then ['\\', 'f']
  else if c = '\n' then ['\\', 'n']
  else if c = '\r' then ['\\', 'r']
  else if c = '\t' then ['\\', 't']
  else if c.toNat < 0x20 then ['\\', 'u', '0', '0'] ++ Text.hexDigits 2 c.toNat
  else [c]

/-- A text in quotes. -/
def quote (text : String) : String :=
  "\"" ++ String.ofList (text.toList.flatMap escape) ++ "\""

/-- Floats in JSON: whole numbers end in `.0`, numbers below 10^-5 and from 10^16 on have an
exponent, which is signed in either case, and ties go to the even digit. -/
def floatLayout : Layout := ⟨.even, ".0", some (-4, 16), "+"⟩

/-- A float, null if it is not finite. -/
def float (x : Binary64) : String :=
  if x.isFinite then floatLayout.text x else "null"

/-- An array of parts that are written already. -/
def array (parts : List String) : String :=
  "[" ++ ",".intercalate parts ++ "]"

/-- An object of parts that are written already. -/
def object (entries : List (String × String)) : String :=
  "\x7b" ++ ",".intercalate (entries.map fun (name, part) => quote name ++ ":" ++ part) ++ "\x7d"

/-- A one-entry object that names a variant. -/
def variant (name part : String) : String :=
  object [(name, part)]

end RecordMapping.Document.Writer

namespace RecordMapping

open Document

/-- A reference to an object as JSON. -/
def Reference.json (object : Reference) : String :=
  Writer.object [("id", Writer.quote object.id.display),
    ("class", Writer.quote object.className)]

/-- A key as JSON: its token. -/
def Key.json (key : Key) : String :=
  Writer.quote key.token

namespace FieldValue

mutual

/-- A field value as JSON. -/
def json : FieldValue → String
  | .null => Writer.quote "Null"
  | .bool value => Writer.variant "Bool" (if value then "true" else "false")
  | .int value => Writer.variant "Int" (toString value.toInt)
  | .float value => Writer.variant "Float" (Writer.float value)
  | .text value => Writer.variant "Text" (Writer.quote value)
  | .bytes value =>
      Writer.variant "Bytes" (Writer.array (value.map fun byte => toString byte.toNat))
  | .dateTime value => Writer.variant "DateTime" (Writer.quote (value.text "Z"))
  | .key value => Writer.variant "Key" value.json
  | .tracked inner => Writer.variant "Tracked" (json inner)
  | .list items => Writer.variant "List" (Writer.array (jsonItems items))
  | .object value => Writer.variant "Object" value.json
  | .embedded values => Writer.variant "Embedded" (Writer.array (jsonItems values))

/-- The items of a list as JSON. -/
def jsonItems : List FieldValue → List String
  | [] => []
  | item :: rest => json item :: jsonItems rest

end

end FieldValue

end RecordMapping
