import RecordMapping.Bytes.Base64Url
import RecordMapping.Bytes.Endian
import RecordMapping.Key.Build
import RecordMapping.Text.Blank

/-!
# Key tokens

A token is a key as one word that can stand in a web address. Its bytes are a version, the count
of levels, and the levels from the root down; each level is the kind, a tag, and the identifier
that the tag announces. Counts and lengths take eight bytes, least significant first.

* `Key.token` writes a key.
* `Key.ofToken` reads a token, with blanks around it ignored, and refuses every other text.
-/

namespace RecordMapping

namespace Key.Token

/-- The version that a token starts with. -/
def version : UInt8 := 1

/-- A length as eight bytes. -/
def lengthBytes (length : Nat) : List UInt8 :=
  Bytes.littleEndian 8 length

/-- A text as its length in bytes and its bytes. -/
def textBytes (text : String) : List UInt8 :=
  let bytes := text.toUTF8.data.toList
  lengthBytes bytes.length ++ bytes

/-- An identifier behind its tag. -/
def identifierBytes : Option Identifier → List UInt8
  | none => [0]
  | some (.id value) => 1 :: Bytes.littleEndian 8 value.toUInt64.toNat
  | some (.name value) => 2 :: textBytes value

/-- A level of a path. -/
def segmentBytes (segment : Segment) : List UInt8 :=
  textBytes segment.kind ++ identifierBytes segment.identifier

/-- A path behind the version and the count of its levels. -/
def pathBytes (path : List Segment) : List UInt8 :=
  version :: (lengthBytes path.length ++ path.flatMap segmentBytes)

/-- Splits off the first `count` bytes. -/
def take (count : Nat) (bytes : List UInt8) : Except TokenFault (List UInt8 × List UInt8) :=
  if bytes.length < count then .error .truncated else .ok (bytes.splitAt count)

/-- Splits off one byte. -/
def takeByte : List UInt8 → Except TokenFault (UInt8 × List UInt8)
  | [] => .error .truncated
  | byte :: rest => .ok (byte, rest)

/-- Reads eight bytes as a number. -/
def takeNumber (bytes : List UInt8) : Except TokenFault (Nat × List UInt8) := do
  let (number, rest) ← take 8 bytes
  return (Bytes.ofLittleEndian number, rest)

/-- Reads a text behind its length. -/
def takeText (bytes : List UInt8) : Except TokenFault (String × List UInt8) := do
  let (length, rest) ← takeNumber bytes
  let (text, rest) ← take length rest
  match String.fromUTF8? ⟨text.toArray⟩ with
  | some text => return (text, rest)
  | none => throw .invalidText

/-- Reads an identifier behind its tag. -/
def takeIdentifier (bytes : List UInt8) :
    Except TokenFault (Option Identifier × List UInt8) := do
  let (tag, rest) ← takeByte bytes
  if tag = 0 then return (none, rest)
  else if tag = 1 then
    let (number, rest) ← takeNumber rest
    return (some (.id (Int64.ofNat number)), rest)
  else if tag = 2 then
    let (name, rest) ← takeText rest
    return (some (.name name), rest)
  else throw (.unknownTag tag.toNat)

/-- Reads the given number of levels. -/
def takePath : Nat → List UInt8 → Except TokenFault (List Segment × List UInt8)
  | 0, bytes => .ok ([], bytes)
  | count + 1, bytes => do
      let (kind, rest) ← takeText bytes
      let (identifier, rest) ← takeIdentifier rest
      let (path, rest) ← takePath count rest
      return (⟨kind, identifier⟩ :: path, rest)

/-- Reads a path behind the version and the count of its levels, up to the end of the bytes. -/
def pathOf (bytes : List UInt8) : Except TokenFault (List Segment) := do
  let (found, rest) ← takeByte bytes
  if found ≠ version then throw (.unsupportedVersion found.toNat)
  let (count, rest) ← takeNumber rest
  let (path, rest) ← takePath count rest
  if rest.isEmpty then return path else throw .trailingBytes

/-- Reads a key from a token. -/
def read (token : String) : Except TokenFault Key :=
  match Bytes.Base64Url.decode? (Text.trimBlank token.toList) with
  | none => .error (.notBase64 token)
  | some bytes => do
      let path ← pathOf bytes
      (Key.ofPath path).mapError .invalidPath

end Key.Token

namespace Key

/-- The token of a key. -/
def token (key : Key) : String :=
  String.ofList (Bytes.Base64Url.encode (Token.pathBytes key.path))

/-- The key that a token stands for. -/
def ofToken (token : String) : Outcome Key :=
  (Token.read token).mapError .malformedKey

end Key

end RecordMapping
