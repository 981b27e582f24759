import RecordMapping.Error

/-!
# Configuration

Which generation of records is written, and how long a text may be before it is kept out of the
index. A configuration of use has a threshold above zero.
-/

namespace RecordMapping

/-- The generations of records, each of which writes what the ones before it do and more. -/
inductive Generation where
  | withoutChildKeys
  | writingChildKeys
  | readingChildKeys
deriving DecidableEq, Repr

namespace Generation

/-- The place of a generation among all. -/
def rank : Generation → Nat
  | .withoutChildKeys => 0
  | .writingChildKeys => 1
  | .readingChildKeys => 2

/-- Whether a generation is the required one or a later one. -/
def covers (version required : Generation) : Bool :=
  required.rank ≤ version.rank

/-- The name of a generation in documents. -/
def name : Generation → String
  | .withoutChildKeys => "parents_do_not_refer_to_children"
  | .writingChildKeys => "write_owned_child_keys_to_parents"
  | .readingChildKeys => "read_owned_child_keys_from_parents"

/-- All generations, the oldest first. -/
def all : List Generation :=
  [.withoutChildKeys, .writingChildKeys, .readingChildKeys]

/-- The generation of a name. -/
def ofName? (name : String) : Option Generation :=
  all.find? fun generation => generation.name = name

end Generation

/-- The settings of a mapper. -/
structure Settings where
  generation : Generation := .writingChildKeys
  /-- The greatest count of bytes that a text in the index may have. -/
  textLimit : UInt64 := 1500
deriving DecidableEq, Repr

namespace Settings

/-- Refuses settings that make no sense. -/
def check (settings : Settings) : Outcome Unit :=
  if settings.textLimit = 0 then .error (.settings .zeroThreshold) else .ok ()

/-- Whether the keys of owned children are written to the records of their parents. -/
def keepsChildKeys (settings : Settings) : Bool :=
  settings.generation.covers .writingChildKeys

end Settings

end RecordMapping
