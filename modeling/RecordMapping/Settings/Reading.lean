import RecordMapping.Document.Reader
import RecordMapping.Document.Writer
import RecordMapping.Object.Reading
import RecordMapping.Settings.Basic
import RecordMapping.Value.Reading

/-!
# Settings as JSON

Settings are an object with the entries `storage_version` and `large_text_threshold`, or an
array of the two. What is missing keeps its default, and entries of other names are ignored.
-/

namespace RecordMapping

/-- The generation that a document names. -/
def Generation.ofDocument? : Document → Option Generation
  | .text (some name) => Generation.ofName? name
  | .object [(some name, .null)] => Generation.ofName? name
  | _ => none

namespace Settings

/-- The threshold that a document gives. -/
def threshold? (document : Document) : Option UInt64 :=
  (FieldValue.integerWithin? 0 (UInt64.size - 1) document).map fun value => UInt64.ofNat value.toNat

/-- Reads an entry if it is there, and refuses one that is repeated. -/
def entry {α : Type} (name : String) (read : Document → Option α) (default : α)
    (entries : List (Option String × Document)) : Option α :=
  match entries.filter fun (entry, _) => entry = some name with
  | [] => some default
  | [(_, value)] => read value
  | _ => none

/-- The settings that a document describes. -/
def ofDocument? : Document → Option Settings
  | .array [] => some {}
  | .array [version] => do
      return { generation := ← Generation.ofDocument? version }
  | .array [version, threshold] => do
      return ⟨← Generation.ofDocument? version, ← threshold? threshold⟩
  | .object entries => do
      if Document.areNamed entries then
        let defaults : Settings := {}
        let version ←
          entry "storage_version" Generation.ofDocument? defaults.generation entries
        let threshold ←
          entry "large_text_threshold" threshold? defaults.textLimit entries
        return ⟨version, threshold⟩
      else none
  | _ => none

/-- The settings that a text describes, once they are checked. -/
def ofText (text : String) : Outcome Settings :=
  match (Document.ofText? text).bind ofDocument? with
  | none => .error (.settings .unreadable)
  | some settings => do
      settings.check
      return settings

/-- The settings as JSON. -/
def json (settings : Settings) : String :=
  Document.Writer.object [
    ("storage_version", Document.Writer.quote settings.generation.name),
    ("large_text_threshold", toString settings.textLimit.toNat)]

end Settings

end RecordMapping
