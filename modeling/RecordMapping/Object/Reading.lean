import RecordMapping.Document.Tree
import RecordMapping.Object.Reference

/-!
# Reading references to objects

An identity is read from 32 hexadecimal digits of either case, alone, in the groups in which
`Identity.display` writes them, or grouped within braces or behind `urn:uuid:`, again of either
case. A reference is read from an object with the two entries `id` and `class`, or from an array of
the two.
-/

namespace RecordMapping

namespace Identity

/-- The identity that 32 digits spell. -/
def ofDigits? (digits : List Char) : Option Identity :=
  if digits.length = 32 then
    (Text.ofHexDigits? digits).map fun value => ⟨BitVec.ofNat 128 value⟩
  else none

/-- Takes off a group of digits and the hyphen behind it. -/
def group? (length : Nat) (characters : List Char) : Option (List Char × List Char) :=
  match characters.drop length with
  | '-' :: rest => some (characters.take length, rest)
  | _ => none

/-- The identity that groups of 8, 4, 4, 4 and 12 digits spell. -/
def ofGroups? (characters : List Char) : Option Identity := do
  let (first, rest) ← group? 8 characters
  let (second, rest) ← group? 4 rest
  let (third, rest) ← group? 4 rest
  let (fourth, fifth) ← group? 4 rest
  ofDigits? (first ++ second ++ third ++ fourth ++ fifth)

/-- The identity that a text describes. -/
def ofText? (text : String) : Option Identity :=
  let characters := text.toList
  match characters.length with
  | 32 => ofDigits? characters
  | 36 => ofGroups? characters
  | 38 =>
      if characters.head? = some '\x7b' ∧ characters.getLast? = some '\x7d' then
        ofGroups? (characters.drop 1).dropLast
      else none
  | 45 =>
      if (characters.take 9).map Char.toLower = "urn:uuid:".toList then
        ofGroups? (characters.drop 9)
      else none
  | _ => none

/-- The identity that a document describes. -/
def ofDocument? : Document → Option Identity
  | .text (some text) => ofText? text
  | _ => none

end Identity

namespace Document

/-- The text that a document is. -/
def text? : Document → Option String
  | .text value => value
  | _ => none

/-- The one value that the entries give to a name; an entry that is repeated gives none. -/
def single? (name : String) (entries : List (Option String × Document)) : Option Document :=
  match entries.filter fun (entry, _) => entry = some name with
  | [(_, value)] => some value
  | _ => none

/-- Whether the name of every entry is a text. -/
def areNamed (entries : List (Option String × Document)) : Bool :=
  entries.all fun (entry, _) => entry.isSome

end Document

/-- The reference that a document describes. Entries of other names are ignored. -/
def Reference.ofDocument? : Document → Option Reference
  | .array [id, className] => do
      return ⟨← Identity.ofDocument? id, ← className.text?⟩
  | .object entries => do
      if Document.areNamed entries then
        let id ← Document.single? "id" entries
        let className ← Document.single? "class" entries
        return ⟨← Identity.ofDocument? id, ← className.text?⟩
      else none
  | _ => none

end RecordMapping
