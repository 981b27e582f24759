import RecordMapping.Proofs.Draft.Omission
import RecordMapping.Proofs.Draft.Scopes

/-!
# Embedded objects are flattened

The value of an embedded field is stored as if the leaves below it were fields of the class itself,
one after the other, each under the name that the innermost embedded object gives it. What is reached
in the value is said level by level (`Field.Unfolds`); the draft after a success is the one with all
leaves stored, and a failure stores those before the first that cannot be stored
(`Mapper.Flattens`).
-/

namespace RecordMapping

open Attempt

/-! ## The levels of a value -/

/-- The values of an embedded object, with null for the fields that have none. -/
def Embedding.padded (inner : Embedding Field) (values : List FieldValue) : List FieldValue :=
  values ++ List.replicate (inner.schema.fields.length - values.length) .null

/-- What is reached in the value of a field that may lie in an embedded object. -/
structure Field.Unfolds (operation : Operation) (embedding : Option (Embedding Field))
    (position : Nat) (field : Field) (value : FieldValue) (reached : List (Outcome Leaf)) : Prop where
  /-- Neither a field nor anything below it that the operation does not write. -/
  unwritten : field.isWrittenBy operation = false → reached = []
  leaf : field.isWrittenBy operation = true → field.embedding = none →
    reached = [.ok ⟨embedding, position, field, value⟩]
  /-- What is reached in the fields of an embedded object, in their order. All of them are null if
  the object is, and the last ones if it has too few values. -/
  level : ∀ inner values, field.isWrittenBy operation = true → field.embedding = some inner →
    (value.bare = .null ∧ values = [] ∨ value.bare = .embedded values) →
    values.length ≤ inner.schema.fields.length →
    reached = ((inner.schema.fields.zip (inner.padded values)).zipIdx).flatMap
      fun part => part.1.1.leaves operation (some inner) part.2 part.1.2
  /-- A refusal only, before anything of the level, where there are more values than fields. -/
  crowded : ∀ inner values, field.isWrittenBy operation = true → field.embedding = some inner →
    value.bare = .embedded values → inner.schema.fields.length < values.length →
    reached = [.error (.unsupportedFieldType field.name
      (.tooManyEmbedded inner.schema.name inner.schema.fields.length values.length))]
  /-- So with a value that is neither null nor an embedded object. -/
  foreign : ∀ inner, field.isWrittenBy operation = true → field.embedding = some inner →
    value.bare ≠ .null → (∀ values, value.bare ≠ .embedded values) →
    reached = [.error (.unsupportedFieldType field.name (.notEmbedded value.bare.typeLabel))]

namespace Field

variable {operation : Operation} {embedding : Option (Embedding Field)}

theorem leavesOf_eq_flatMap (operation : Operation) (embedding : Option (Embedding Field))
    (position : Nat) (fields : List Field) (values : List FieldValue) :
    leavesOf operation embedding position fields values =
      ((fields.zip (values ++ List.replicate (fields.length - values.length) .null)).zipIdx
        position).flatMap fun part => part.1.1.leaves operation embedding part.2 part.1.2 := by
  induction fields generalizing position values with
  | nil => rfl
  | cons field rest ih =>
      rw [leavesOf, ih]
      cases values with
      | nil => simp [List.replicate_succ]
      | cons value others => simp

theorem leaves_of_ok_embeddedValues {inner : Embedding Field} {field : Field} {value : FieldValue}
    {values : List FieldValue} (position : Nat) (written : field.isWrittenBy operation = true)
    (held : field.embedding = some inner)
    (apart : Mapper.embeddedValues field inner.schema value = .ok values) :
    field.leaves operation embedding position value =
      leavesOf operation (some inner) 0 inner.schema.fields values := by
  rw [leaves_of_embedding held, if_pos written]
  simp only [apart]

theorem leaves_of_error_embeddedValues {inner : Embedding Field} {field : Field}
    {value : FieldValue} {error : MappingError} (position : Nat)
    (written : field.isWrittenBy operation = true) (held : field.embedding = some inner)
    (apart : Mapper.embeddedValues field inner.schema value = .error error) :
    field.leaves operation embedding position value = [.error error] := by
  rw [leaves_of_embedding held, if_pos written]
  simp only [apart]

/-- **What is reached in a value**, level by level. -/
theorem leaves_unfolds (field : Field) (embedding : Option (Embedding Field)) (position : Nat)
    (value : FieldValue) :
    Unfolds operation embedding position field value
      (field.leaves operation embedding position value) := by
  refine ⟨?unwritten, ?leaf, ?level, ?crowded, ?foreign⟩
  case unwritten =>
    intro unwritten
    cases held : field.embedding with
    | none => rw [leaves_of_bare held, if_neg (by simp [unwritten])]
    | some inner => rw [leaves_of_embedding held, if_neg (by simp [unwritten])]
  case leaf =>
    intro written bare
    rw [leaves_of_bare bare, if_pos written]
  case level =>
    intro inner values written held taken short
    have apart : Mapper.embeddedValues field inner.schema value = .ok values := by
      unfold Mapper.embeddedValues
      rcases taken with ⟨null, rfl⟩ | embedded
      · rw [null]
      · rw [embedded]
        exact if_neg (Nat.not_lt.mpr short)
    rw [leaves_of_ok_embeddedValues position written held apart]
    exact leavesOf_eq_flatMap operation (some inner) 0 inner.schema.fields values
  case crowded =>
    intro inner values written held embedded long
    have apart : Mapper.embeddedValues field inner.schema value = .error (field.unsupported
        (.tooManyEmbedded inner.schema.name inner.schema.fields.length values.length)) := by
      unfold Mapper.embeddedValues
      rw [embedded]
      exact if_pos long
    exact leaves_of_error_embeddedValues position written held apart
  case foreign =>
    intro inner written held notNull notEmbedded
    have apart : Mapper.embeddedValues field inner.schema value =
        .error (field.unsupported (.notEmbedded value.bare.typeLabel)) := by
      unfold Mapper.embeddedValues
      split
      case h_1 null => exact (notNull null).elim
      case h_2 values embedded => exact (notEmbedded values embedded).elim
      case h_3 => rfl
    exact leaves_of_error_embeddedValues position written held apart

end Field

/-! ## Storing leaves -/

/-- A leaf and the property that it puts, if it puts one. -/
structure StoredLeaf where
  leaf : Leaf
  put : Option Property

/-- The draft with some leaves stored: their relations wait, and their properties are put, each in
their order. -/
def Draft.storing (mapper : Mapper) (draft : Draft) (stored : List StoredLeaf) : Draft :=
  { draft with
    pending := draft.pending ++ stored.filterMap fun entry => mapper.notedOf entry.leaf
    record := draft.record.putAll (stored.filterMap StoredLeaf.put) }

namespace Mapper

variable {mapper : Mapper} {knownKey : Reference → Option Key} {draft final : Draft}
  {error : MappingError} {position : Nat} {value : FieldValue} {field : Field}

/-- Whether each leaf puts what the draft makes it put. -/
def Puts (mapper : Mapper) (knownKey : Reference → Option Key) (draft : Draft)
    (stored : List StoredLeaf) : Prop :=
  ∀ entry ∈ stored, mapper.putOf knownKey draft entry.leaf = .ok entry.put

/-- The relation that is noted for what is reached, even if it cannot be stored then. -/
def notedOfReached (mapper : Mapper) (reached : Outcome Leaf) : Option Pending :=
  match reached with
  | .ok leaf => mapper.notedOf leaf
  | .error _ => none

theorem storeReached_eq (mapper : Mapper) (knownKey : Reference → Option Key)
    (reached : Outcome Leaf) (draft : Draft) :
    mapper.storeReached knownKey reached draft =
      match reached >>= mapper.putOf knownKey draft with
      | .ok put => .ok () ((draft.noting (mapper.notedOfReached reached)).putAll put.toList)
      | .error error => .error error (draft.noting (mapper.notedOfReached reached)) := by
  cases reached with
  | error error =>
      rw [notedOfReached, Draft.noting_none]
      rfl
  | ok leaf => exact storeLeaf_eq mapper knownKey leaf draft

theorem storing_nil (mapper : Mapper) (draft : Draft) : draft.storing mapper [] = draft := by
  simp [Draft.storing, Record.putAll]

theorem storing_cons (mapper : Mapper) (draft : Draft) (leaf : Leaf) (put : Option Property)
    (rest : List StoredLeaf) :
    draft.storing mapper (⟨leaf, put⟩ :: rest) =
      ((draft.noting (mapper.notedOf leaf)).putAll put.toList).storing mapper rest := by
  have noted : (⟨leaf, put⟩ :: rest).filterMap (fun entry => mapper.notedOf entry.leaf) =
      (mapper.notedOf leaf).toList ++ rest.filterMap fun entry => mapper.notedOf entry.leaf := by
    cases none? : mapper.notedOf leaf <;> simp [none?]
  have puts : (⟨leaf, put⟩ :: rest).filterMap StoredLeaf.put =
      put.toList ++ rest.filterMap StoredLeaf.put := by
    cases put <;> rfl
  unfold Draft.storing
  rw [noted, puts, ← List.append_assoc, Record.putAll_append]
  rfl

theorem puts_cons {entry : StoredLeaf} {rest : List StoredLeaf}
    (given : mapper.putOf knownKey draft entry.leaf = .ok entry.put)
    (puts : mapper.Puts knownKey
      ((draft.noting (mapper.notedOf entry.leaf)).putAll entry.put.toList) rest) :
    mapper.Puts knownKey draft (entry :: rest) := by
  intro other listed
  rcases List.mem_cons.mp listed with rfl | later
  · exact given
  · rw [← putOf_eq_of_sameSetting (draft.sameSetting_put _ _)]
    exact puts other later

theorem Puts.tail {entry : StoredLeaf} {rest : List StoredLeaf}
    (puts : mapper.Puts knownKey draft (entry :: rest)) :
    mapper.Puts knownKey ((draft.noting (mapper.notedOf entry.leaf)).putAll entry.put.toList)
      rest := by
  intro other listed
  rw [putOf_eq_of_sameSetting (draft.sameSetting_put _ _)]
  exact puts other (List.mem_cons_of_mem _ listed)

/-- Leaves that can be stored are stored, and then what comes after them is reached. -/
theorem each_storeReached_of_puts {stored : List StoredLeaf} {later : List (Outcome Leaf)}
    (puts : mapper.Puts knownKey draft stored) :
    each (stored.map (fun entry => .ok entry.leaf) ++ later) (mapper.storeReached knownKey) draft =
      each later (mapper.storeReached knownKey) (draft.storing mapper stored) := by
  induction stored generalizing draft with
  | nil => rw [storing_nil, List.map_nil, List.nil_append]
  | cons entry rest ih =>
      have first : mapper.storeReached knownKey (.ok entry.leaf) draft =
          .ok () ((draft.noting (mapper.notedOf entry.leaf)).putAll entry.put.toList) := by
        have given : (.ok entry.leaf >>= mapper.putOf knownKey draft) = .ok entry.put :=
          puts entry List.mem_cons_self
        rw [storeReached_eq, given]
        rfl
      rw [List.map_cons, List.cons_append, each, bind_of_ok first, ih puts.tail, ← storing_cons]

/-- **Leaves that can all be stored.** -/
theorem each_storeReached_gives_iff {reached : List (Outcome Leaf)} :
    (each reached (mapper.storeReached knownKey)).Gives draft () final ↔
      ∃ stored, reached = stored.map (fun entry => .ok entry.leaf) ∧
        mapper.Puts knownKey draft stored ∧ final = draft.storing mapper stored := by
  constructor
  case mp =>
    intro done
    induction reached generalizing draft with
    | nil =>
        obtain rfl : draft = final := (EStateM.Result.ok.inj done).2
        refine ⟨[], rfl, ?_, (storing_nil mapper draft).symm⟩
        intro entry listed
        contradiction
    | cons first rest ih =>
        obtain ⟨_, middle, doneFirst, doneRest⟩ := Gives.bind done
        obtain ⟨leaf, put, rfl, given, rfl⟩ := storeReached_gives doneFirst
        obtain ⟨stored, rfl, puts, rfl⟩ := ih doneRest
        exact ⟨⟨leaf, put⟩ :: stored, rfl, puts_cons given puts, (storing_cons ..).symm⟩
  case mpr =>
    intro split
    obtain ⟨stored, rfl, puts, rfl⟩ := split
    have reach : each (stored.map (fun entry => .ok entry.leaf) ++ [])
        (mapper.storeReached knownKey) draft = _ := each_storeReached_of_puts puts
    rw [List.append_nil] at reach
    exact reach

/-- **The first thing reached that cannot be stored.** What comes before it is stored, and its own
relation is noted. -/
theorem each_storeReached_fails_iff {reached : List (Outcome Leaf)} :
    (each reached (mapper.storeReached knownKey)).Fails draft error final ↔
      ∃ stored bad later, reached = stored.map (fun entry => .ok entry.leaf) ++ bad :: later ∧
        mapper.Puts knownKey draft stored ∧ (bad >>= mapper.putOf knownKey draft) = .error error ∧
        final = (draft.storing mapper stored).noting (mapper.notedOfReached bad) := by
  constructor
  case mp =>
    intro failed
    induction reached generalizing draft with
    | nil => exact (not_fails_pure failed).elim
    | cons first rest ih =>
        rcases Fails.bind failed with failedFirst | ⟨_, middle, doneFirst, failedRest⟩
        · obtain ⟨refused, -⟩ := storeReached_fails failedFirst
          refine ⟨[], first, rest, rfl, ?_, refused, ?_⟩
          · intro entry listed
            contradiction
          · rw [Fails, storeReached_eq, refused] at failedFirst
            rw [storing_nil]
            exact (EStateM.Result.error.inj failedFirst).2.symm
        · obtain ⟨leaf, put, rfl, given, rfl⟩ := storeReached_gives doneFirst
          obtain ⟨stored, bad, later, rfl, puts, refused, rfl⟩ := ih failedRest
          refine ⟨⟨leaf, put⟩ :: stored, bad, later, rfl, puts_cons given puts, ?_, ?_⟩
          · rw [← putOf_eq_of_sameSetting (draft.sameSetting_put _ _)]
            exact refused
          · rw [storing_cons]
  case mpr =>
    intro split
    obtain ⟨stored, bad, later, rfl, puts, refused, rfl⟩ := split
    have setting : draft.SameSetting (draft.storing mapper stored) :=
      ⟨draft.record.key_putAll _, rfl, rfl⟩
    have first : mapper.storeReached knownKey bad (draft.storing mapper stored) = .error error
        ((draft.storing mapper stored).noting (mapper.notedOfReached bad)) := by
      rw [storeReached_eq, putOf_eq_of_sameSetting setting, refused]
    rw [Fails, each_storeReached_of_puts puts, each, bind_of_error first]

theorem name_of_putOf {leaf : Leaf} {put : Property}
    (given : mapper.putOf knownKey draft leaf = .ok (some put)) :
    put.name = mapper.propertyIn leaf.embedding leaf.field := by
  unfold putOf at given
  split at given
  case h_1 relation related =>
    split at given
    case isTrue =>
      obtain ⟨value, -, made⟩ := bind_eq_ok_iff.mp given
      obtain rfl : _ = put := Option.some.inj (Except.ok.inj made)
      rfl
    case isFalse =>
      have made : none = some put := Except.ok.inj given
      contradiction
  case h_2 =>
    obtain ⟨-, given⟩ := check_bind_eq_ok_iff.mp given
    obtain ⟨value, -, made⟩ := bind_eq_ok_iff.mp given
    obtain rfl : _ = put := Option.some.inj (Except.ok.inj made)
    rfl

/-! ## The whole call -/

/-- What a call leaves that stores what is reached in a value. -/
structure KeepsRest (mapper : Mapper) (draft final : Draft) (reached : List (Outcome Leaf)) :
    Prop where
  /-- The key, where it came from, and whatever else is not stored. -/
  rest : final = { draft with record := final.record, pending := final.pending }
  key : final.key = draft.key
  pending : draft.pending <+: final.pending
  /-- The properties that no leaf reached is stored under. -/
  properties : ∀ name,
    (∀ leaf, .ok leaf ∈ reached → mapper.propertyIn leaf.embedding leaf.field ≠ name) →
    final.record.named name = draft.record.named name

theorem keepsRest_storing {stored : List StoredLeaf} (noted : Option Pending)
    {reached : List (Outcome Leaf)} (puts : mapper.Puts knownKey draft stored)
    (among : ∀ entry ∈ stored, .ok entry.leaf ∈ reached) :
    mapper.KeepsRest draft ((draft.storing mapper stored).noting noted) reached := by
  refine ⟨rfl, draft.record.key_putAll _, ?_, ?_⟩
  · exact (List.prefix_append _ _).trans (List.prefix_append _ _)
  · intro name apart
    apply Record.named_putAll_of_ne
    intro property listed
    obtain ⟨entry, member, put⟩ := List.mem_filterMap.mp listed
    have given := puts entry member
    rw [put] at given
    rw [name_of_putOf given]
    exact apart entry.leaf (among entry member)

/-- What it means that the value of a field is stored leaf by leaf. -/
structure Flattens (mapper : Mapper) (knownKey : Reference → Option Key) (draft : Draft)
    (position : Nat) (field : Field) (value : FieldValue) : Prop where
  /-- What is reached in the value, and in each part of it. -/
  unfolds : ∀ embedding place (below : Field) part, Field.Unfolds draft.operation embedding place
    below part (below.leaves draft.operation embedding place part)
  /-- The call succeeds if leaves only are reached and each can be stored, and stores them. -/
  gives_iff : ∀ final, (mapper.fillField knownKey position value).Gives draft () final ↔
    ∃ stored, field.leaves draft.operation none position value =
        stored.map (fun entry => .ok entry.leaf) ∧
      mapper.Puts knownKey draft stored ∧ final = draft.storing mapper stored
  /-- It fails by the first thing reached that is no leaf or cannot be stored. -/
  fails_iff : ∀ error final, (mapper.fillField knownKey position value).Fails draft error final ↔
    ∃ stored bad later, field.leaves draft.operation none position value =
        stored.map (fun entry => .ok entry.leaf) ++ bad :: later ∧
      mapper.Puts knownKey draft stored ∧ (bad >>= mapper.putOf knownKey draft) = .error error ∧
      final = (draft.storing mapper stored).noting (mapper.notedOfReached bad)
  /-- A leaf is stored under the name that the object it lies in gives its field, or else under the
  field's own. Objects further out do not rename it. -/
  named : ∀ leaf put, mapper.putOf knownKey draft leaf = .ok (some put) →
    put.name = ((leaf.embedding.bind fun inner => inner.override? leaf.field.name).getD
      (mapper.propertyOf leaf.field))
  rest : mapper.KeepsRest draft ((mapper.fillField knownKey position value).outcome draft).2
    (field.leaves draft.operation none position value)
  /-- All objects that were entered are left again, whether the call succeeds or fails. -/
  scopes : Descent.fillField mapper knownKey position value ⟨draft, []⟩ =
    Descent.onDraft (mapper.fillField knownKey position value) ⟨draft, []⟩

theorem keepsRest_each (reached : List (Outcome Leaf)) :
    mapper.KeepsRest draft ((each reached (mapper.storeReached knownKey)).outcome draft).2
      reached := by
  unfold outcome
  cases done : each reached (mapper.storeReached knownKey) draft with
  | ok _ final =>
      obtain ⟨stored, rfl, puts, rfl⟩ := each_storeReached_gives_iff.mp done
      have kept := keepsRest_storing none puts fun entry => List.mem_map_of_mem
      rw [Draft.noting_none] at kept
      exact kept
  | error error final =>
      obtain ⟨stored, bad, later, rfl, puts, -, rfl⟩ := each_storeReached_fails_iff.mp done
      apply keepsRest_storing _ puts
      intro entry member
      exact List.mem_append_left _ (List.mem_map_of_mem member)

/-- **Embedded objects are flattened.** The value of a field that is no part of the key is stored
leaf by leaf, however deep the objects in it lie. -/
theorem fillField_flattens (mapper : Mapper) (knownKey : Reference → Option Key)
    (value : FieldValue) (found : draft.schema.field position = .ok field)
    (plain : field.isInKey = false) : mapper.Flattens knownKey draft position field value := by
  have listed : mapper.fillField knownKey position value draft =
      each (field.leaves draft.operation none position value) (mapper.storeReached knownKey)
        draft := by
    rw [fillField_of_not_inKey mapper knownKey value found plain, storeField_eq_each]
  refine ⟨?unfolds, ?gives, ?fails, ?named, ?rest, ?scopes⟩
  case unfolds =>
    intro embedding place below part
    exact below.leaves_unfolds embedding place part
  case gives =>
    intro final
    rw [← each_storeReached_gives_iff, Gives, Gives, listed]
  case fails =>
    intro error final
    rw [← each_storeReached_fails_iff, Fails, Fails, listed]
  case named =>
    intro leaf put given
    exact name_of_putOf given
  case rest =>
    rw [outcome, listed]
    exact keepsRest_each _
  case scopes => exact Descent.fillField_eq mapper knownKey position value draft

end Mapper

/-! ## A place within a place, as an example -/

/-- Where something stands on a shelf. The code is no part of the key of what stands there. -/
def spotClass : Schema where
  name := "Spot"
  kind := "Spot"
  inheritance := .newTable
  isEmbeddable := true
  fields := [{ name := "code", type := .string, isKeyName := true }]

/-- A hall, and a spot in it that names no property. -/
def placeClass : Schema where
  name := "Place"
  kind := "Place"
  inheritance := .newTable
  isEmbeddable := true
  fields := [
    { name := "hall", type := .string },
    { name := "spot", type := .list, embedding := some ⟨spotClass, []⟩ }]

/-- Things whose place names the properties of a hall and of a code. -/
def exhibitClass : Schema where
  name := "Exhibit"
  kind := "Exhibit"
  inheritance := .newTable
  isEmbeddable := false
  fields := [
    { name := "id", type := .long, isPrimaryKey := true },
    { name := "place", type := .list,
      embedding := some ⟨placeClass, [("hall", "place_hall"), ("code", "place_code")]⟩ }]

def exhibitMapper : Mapper where
  settings := {}
  schema? name := if name = "Exhibit" then some exhibitClass else none

def newExhibit : Draft where
  object := ⟨⟨1⟩, "Exhibit"⟩
  schema := exhibitClass
  operation := .insert
  record := ⟨⟨[], "Exhibit", none⟩, []⟩

/-- The hall gets the name that the place gives it. The spot, for which there is no value, is null,
and so is its code, which the place does not name. -/
theorem Mapper.fillField_flattens_exhibit :
    exhibitMapper.insert newExhibit.object = .ok newExhibit ∧
      ∃ field, newExhibit.schema.field 1 = .ok field ∧ field.isInKey = false ∧
        (exhibitMapper.fillField (fun _ => none) 1 (.embedded [.text "North"])).Gives newExhibit ()
          (newExhibit.putAll [⟨"place_hall", .text "North", true⟩, ⟨"code", .null, true⟩]) := by
  have found : newExhibit.schema.field 1 = .ok _ := rfl
  have flat := fillField_flattens exhibitMapper (fun _ => none) (.embedded [.text "North"]) found
    (by rfl)
  refine ⟨rfl, _, found, rfl, (flat.gives_iff _).mpr ⟨[
    ⟨⟨some ⟨placeClass, _⟩, 0, _, .text "North"⟩, some ⟨"place_hall", .text "North", true⟩⟩,
    ⟨⟨some ⟨spotClass, []⟩, 0, _, .null⟩, some ⟨"code", .null, true⟩⟩], rfl, ?_, rfl⟩⟩
  intro entry listed
  rcases List.mem_pair.mp listed with rfl | rfl
  · rfl
  · rfl

end RecordMapping
