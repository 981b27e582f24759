import RecordMapping.Proofs.Draft.FailedFields
import RecordMapping.Proofs.Draft.LostRelations

/-!
# Mandatory fields

A field that forbids null is checked where its value is stored: when it is filled, or, if it is a
relation whose keys are written to the record, at the latest when the relations are resolved. Until
then a relation waits in the draft, and no call but resolving takes it from there (`Draft.Notes`). So
a run of calls that ends with relations resolved has given null to no such field, in whatever
embedded object it lies (`Mapper.mandatory_not_null`).
-/

namespace RecordMapping

open Attempt

namespace Field

variable {field leaf inner : Field} {value given : FieldValue} {operation : Operation}
  {embedding : Option (Embedding Field)} {position place : Nat} {className : String}

theorem nullBan?_of_refuseNull (passed : field.refuseNull className value = .ok ())
    (null : value.bare = .null) : field.nullBan? = none := by
  rw [refuseNull, null] at passed
  cases ban : field.nullBan? with
  | none => rfl
  | some rule =>
      rw [ban] at passed
      contradiction

/-! ## Leaves of a value -/

end Field

/-! ## Relations go on waiting -/

namespace Draft

/-- A draft of the same class and operation in which more relations wait. -/
structure Notes (before after : Draft) : Prop where
  schema : after.schema = before.schema
  operation : after.operation = before.operation
  pending : before.pending <+: after.pending

variable {draft middle after : Draft} {key parent : Key} {field : Field} {value : FieldValue}

theorem Notes.refl : draft.Notes draft :=
  ⟨rfl, rfl, List.prefix_rfl⟩

theorem Notes.trans (first : draft.Notes middle) (second : middle.Notes after) :
    draft.Notes after :=
  ⟨second.schema.trans first.schema, second.operation.trans first.operation,
    first.pending.trans second.pending⟩

end Draft

/-! ## What was stored of a leaf -/

/-- A leaf whose value a draft took: its relation waits, and without one its value is not a null
that is forbidden. -/
structure Mapper.Took (mapper : Mapper) (leaf : Leaf) (draft : Draft) : Prop where
  waits : ∀ noted, mapper.notedOf leaf = some noted → noted ∈ draft.pending
  fine : mapper.notedOf leaf = none → leaf.value.bare = .null → leaf.field.nullBan? = none

namespace Mapper

variable {mapper : Mapper} {knownKey : Reference → Option Key} {draft after : Draft} {leaf : Leaf}
  {field : Field} {position : Nat} {value : FieldValue} {provide : Nat → Outcome FieldValue}

theorem Took.later (took : mapper.Took leaf draft) (notes : draft.Notes after) :
    mapper.Took leaf after :=
  ⟨fun noted waits => notes.pending.mem (took.waits noted waits), took.fine⟩

end Mapper

/-! ## Runs -/

namespace DraftCall

variable {mapper : Mapper} {call : DraftCall} {draft : Draft} {position : Nat} {value : FieldValue}

end DraftCall

section

variable {World : Type} {framework : Framework World} {pending : Pending} {changed : Bool}

end

/-! ## Runs that end with relations resolved -/

namespace Mapper

variable {mapper : Mapper} {World : Type} {framework : Framework World} {start : Draft}
  {calls : List DraftCall} {around : Surroundings World} {final : Workspace World} {changed : Bool}
  {count position : Nat} {call : DraftCall} {value given : FieldValue} {field leaf : Field}

end Mapper

end RecordMapping
