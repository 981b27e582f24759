import Mathlib.Logic.Relation
import RecordMapping.Framework
import RecordMapping.Proofs.Attempt

/-!
# What a framework does while relations are resolved

The surroundings of a draft change by steps: requests to the framework, which may fail and still
have changed the world, and notes in the registry of parents. `Framework.Reaches` leads from one
moment of a call to a later one. Nothing else is known of a framework; where references must leave
the key of a record alone, `Framework.KeepsKeys` says so.
-/

namespace RecordMapping

open Attempt

namespace Framework

variable {World : Type}

/-- One request to the framework or one note in the registry. -/
inductive Step (framework : Framework World) : Surroundings World → Surroundings World → Prop where
  | announced (around : Surroundings World) (child : Identity) (parent : Key) :
      Step framework around { around with registry := around.registry.announce child parent }
  | marked (around : Surroundings World) (object : Identity) :
      Step framework around { around with registry := around.registry.markRoot object }
  | persisted (around : Surroundings World) (object : Reference) :
      Step framework around ((framework.persist object).outcome around).2
  | flushed (around : Surroundings World) (object : Reference) :
      Step framework around ((framework.flush object).outcome around).2
  | fieldSet (around : Surroundings World) (object : Reference) (position : Nat)
      (value : FieldValue) :
      Step framework around { around with
        world := ((framework.setField object position value).outcome around.world).2 }
  | referenceWritten (around : Surroundings World) (record : Record) (owner : Reference)
      (field : Field) (value : FieldValue) :
      Step framework around { around with
        world := ((framework.writeReference owner field value).outcome (record, around.world)).2.2 }
  | inserted (around : Surroundings World) (owner : Reference) (field : Field) :
      Step framework around { around with
        world := ((framework.inserted owner field).outcome around.world).2 }
  | updated (around : Surroundings World) (owner : Reference) (field : Field) :
      Step framework around { around with
        world := ((framework.updated owner field).outcome around.world).2 }

/-- From one moment to a later one. -/
def Reaches (framework : Framework World) :
    Surroundings World → Surroundings World → Prop :=
  Relation.ReflTransGen framework.Step

/-- The errors that the framework itself may report. -/
inductive MayReport (framework : Framework World) (error : MappingError) : Prop where
  | fieldValue (world : World) (object : Reference) (position : Nat)
      (failed : framework.fieldValue world object position = .error error)
  | persist (object : Reference) (around : Surroundings World)
      (failed : ((framework.persist object).outcome around).1 = .error error)
  | flush (object : Reference) (around : Surroundings World)
      (failed : ((framework.flush object).outcome around).1 = .error error)
  | setField (object : Reference) (position : Nat) (value : FieldValue) (world : World)
      (failed : ((framework.setField object position value).outcome world).1 = .error error)
  | writeReference (owner : Reference) (field : Field) (value : FieldValue) (record : Record)
      (world : World)
      (failed : ((framework.writeReference owner field value).outcome (record, world)).1 =
        .error error)
  | inserted (owner : Reference) (field : Field) (world : World)
      (failed : ((framework.inserted owner field).outcome world).1 = .error error)
  | updated (owner : Reference) (field : Field) (world : World)
      (failed : ((framework.updated owner field).outcome world).1 = .error error)

/-- A framework whose references leave the keys of records alone, as they do when they only set
and remove properties. -/
def KeepsKeys (framework : Framework World) : Prop :=
  ∀ owner field value record world,
    ((framework.writeReference owner field value).outcome (record, world)).2.1.key = record.key

variable {framework : Framework World} {start finish : Surroundings World}

theorem Reaches.refl : framework.Reaches start start :=
  Relation.ReflTransGen.refl

theorem Reaches.trans {middle : Surroundings World} (first : framework.Reaches start middle)
    (second : framework.Reaches middle finish) : framework.Reaches start finish :=
  Relation.ReflTransGen.trans first second

theorem Step.reaches (step : framework.Step start finish) : framework.Reaches start finish :=
  Relation.ReflTransGen.single step

/-- The law of all that is done to the surroundings of a draft. -/
def conduct (framework : Framework World) : Law (Surroundings World) where
  allows := framework.Reaches
  reports _ error := error.isRebuild → framework.MayReport error
  refl _ := .refl
  trans := .trans
  carry _ reports := reports

end Framework

end RecordMapping
