import RecordMapping.Attempt
import RecordMapping.ParentRegistry
import RecordMapping.Record
import RecordMapping.Schema.Field

/-!
# The surroundings of a mapper

A mapper works within a framework that manages objects: it asks for the values of fields and for
keys, and has objects stored. `Framework` names what it needs over any type `World` of states.
Questions leave the world alone; requests may change it. Requests that can store further objects
also pass on the registry of parents, so that the storing of these objects sees it.
-/

namespace RecordMapping

/-- The registry of parents and the world around it. -/
structure Surroundings (World : Type) where
  registry : ParentRegistry
  world : World

/-- An attempt on the world alone. -/
def Surroundings.onWorld {World α : Type} (attempt : Attempt World α) :
    Attempt (Surroundings World) α :=
  attempt.onPart Surroundings.world fun world around => { around with world }

/-- What a mapper needs of the framework around it. -/
structure Framework (World : Type) where
  /-- The value of a field of an object. -/
  fieldValue : World → Reference → Nat → Outcome FieldValue
  /-- The complete key of an object, if it has one yet. -/
  knownKey : World → Reference → Option Key
  isDeleted : World → Reference → Bool
  isDetached : World → Reference → Bool
  /-- Whether the object belongs to this unit of work. -/
  isManaged : World → Reference → Bool
  /-- Replaces the value of a field of an object. -/
  setField : Reference → Nat → FieldValue → Attempt World Unit
  /-- Has an object stored, and gives the managed object for it. -/
  persist : Reference → Attempt (Surroundings World) Reference
  /-- Has a managed object stored, so that it gets a key. -/
  flush : Reference → Attempt (Surroundings World) Unit
  /-- Writes a reference to related objects into the record of their owner. -/
  writeReference : Reference → Field → FieldValue → Attempt (Record × World) Unit :=
    fun _ _ _ => pure ()
  /-- Hears of the insertion of the owner of a relation. -/
  inserted : Reference → Field → Attempt World Unit := fun _ _ => pure ()
  /-- Hears of a change to the owner of a relation. -/
  updated : Reference → Field → Attempt World Unit := fun _ _ => pure ()

end RecordMapping
