import RecordMapping.Proofs.Draft.Population

/-!
# Values of fields, leaf by leaf

An embedded object is stored by going down its tree of fields. What is reached on the way, in order,
can be listed beforehand (`Field.leaves`), and storing the value of a field is storing one leaf after
another. A leaf puts at most one property into the record, and which one depends on the draft by its
key, class and operation only. These stay as they are, so what every leaf of a value puts is settled
by the draft that the value is stored in.
-/

namespace RecordMapping

open Attempt

/-- A field without an embedded object, with its part of a value and the embedded object that it
lies in. -/
structure Leaf where
  embedding : Option (Embedding Field)
  position : Nat
  field : Field
  value : FieldValue

namespace Field

mutual

/-- What is reached in the value of a field, in order: leaves, and an error for each embedded object
whose value cannot be taken apart. -/
def leaves (operation : Operation) (embedding : Option (Embedding Field)) (position : Nat) :
    Field → FieldValue → List (Outcome Leaf)
  | ⟨attributes, none⟩, value =>
      let field : Field := ⟨attributes, none⟩
      if field.isWrittenBy operation then [.ok ⟨embedding, position, field, value⟩] else []
  | ⟨attributes, some ⟨⟨name, kind, inheritance, isEmbeddable, fields⟩, overrides⟩⟩, value =>
      let inner : Embedding Field := ⟨⟨name, kind, inheritance, isEmbeddable, fields⟩, overrides⟩
      let field : Field := ⟨attributes, some inner⟩
      if field.isWrittenBy operation then
        match Mapper.embeddedValues field inner.schema value with
        | .ok values => leavesOf operation (some inner) 0 fields values
        | .error error => [.error error]
      else []

/-- What is reached in the values of the fields of an embedded object. -/
def leavesOf (operation : Operation) (embedding : Option (Embedding Field)) (position : Nat) :
    List Field → List FieldValue → List (Outcome Leaf)
  | [], _ => []
  | field :: rest, values =>
      leaves operation embedding position field (values.headD .null) ++
        leavesOf operation embedding (position + 1) rest values.tail

end

theorem leaves_of_bare {field : Field} (bare : field.embedding = none) (operation : Operation)
    (embedding : Option (Embedding Field)) (position : Nat) (value : FieldValue) :
    field.leaves operation embedding position value =
      if field.isWrittenBy operation then [.ok ⟨embedding, position, field, value⟩] else [] := by
  obtain ⟨attributes, _⟩ := field
  obtain rfl : _ = none := bare
  rw [leaves]

theorem leaves_of_embedding {field : Field} {inner : Embedding Field}
    (held : field.embedding = some inner) (operation : Operation)
    (embedding : Option (Embedding Field)) (position : Nat) (value : FieldValue) :
    field.leaves operation embedding position value =
      if field.isWrittenBy operation then
        match Mapper.embeddedValues field inner.schema value with
        | .ok values => leavesOf operation (some inner) 0 inner.schema.fields values
        | .error error => [.error error]
      else [] := by
  obtain ⟨attributes, _⟩ := field
  obtain rfl : _ = some inner := held
  obtain ⟨⟨name, kind, inheritance, isEmbeddable, fields⟩, overrides⟩ := inner
  unfold leaves
  rfl

end Field

namespace Draft

variable {draft next : Draft}

/-- What decides how values are stored: the key, the class and the operation. -/
structure SameSetting (first second : Draft) : Prop where
  key : second.key = first.key
  schema : second.schema = first.schema
  operation : second.operation = first.operation

theorem presentKeys_eq_of_key (same : next.key = draft.key) (knownKey : Reference → Option Key)
    (relation : Relation) (children : List Reference) :
    next.presentKeys knownKey relation children = draft.presentKeys knownKey relation children := by
  induction children with
  | nil => rfl
  | cons child rest ih => simp only [presentKeys, presentKey, checkChild, same, ih]

theorem presentValue_eq_of_key (same : next.key = draft.key) (knownKey : Reference → Option Key)
    (className : String) (field : Field) (relation : Relation) (value : FieldValue) :
    next.presentValue knownKey className field relation value =
      draft.presentValue knownKey className field relation value := by
  simp only [presentValue, presentKey, checkChild, same, presentKeys_eq_of_key same]

/-- The draft with one more relation waiting for the key, if there is one. -/
def noting (draft : Draft) (noted : Option Pending) : Draft :=
  { draft with pending := draft.pending ++ noted.toList }

theorem noting_none (draft : Draft) : draft.noting none = draft := by
  simp [noting]

end Draft

/-- The record with properties set in order. -/
def Record.putAll (record : Record) (properties : List Property) : Record :=
  properties.foldl (fun record property =>
    record.put property.name property.value property.indexed) record

theorem Record.putAll_append (record : Record) (first second : List Property) :
    record.putAll (first ++ second) = (record.putAll first).putAll second :=
  List.foldl_append

theorem Record.key_putAll (record : Record) (properties : List Property) :
    (record.putAll properties).key = record.key := by
  induction properties generalizing record with
  | nil => rfl
  | cons property rest ih => exact ih _

/-- The draft with properties set in order. -/
def Draft.putAll (draft : Draft) (properties : List Property) : Draft :=
  { draft with record := draft.record.putAll properties }

theorem Draft.sameSetting_put (draft : Draft) (noted : Option Pending)
    (properties : List Property) :
    draft.SameSetting ((draft.noting noted).putAll properties) :=
  ⟨draft.record.key_putAll properties, rfl, rfl⟩

namespace Mapper

variable {mapper : Mapper} {knownKey : Reference → Option Key} {draft next final : Draft}
  {leaf : Leaf} {reached : Outcome Leaf} {error : MappingError}

/-- The relation that a leaf leaves for later. -/
def notedOf (mapper : Mapper) (leaf : Leaf) : Option Pending :=
  (if leaf.field.isPacked then none else leaf.field.relation).map fun relation => {
    field := leaf.field
    relation
    property := mapper.propertyIn leaf.embedding leaf.field
    value := leaf.value
    position := if leaf.embedding.isNone then some leaf.position else none }

/-- The property that a leaf puts into the record. A relation may put none. -/
def putOf (mapper : Mapper) (knownKey : Reference → Option Key) (draft : Draft) (leaf : Leaf) :
    Outcome (Option Property) :=
  let name := mapper.propertyIn leaf.embedding leaf.field
  let className := draft.classNameIn leaf.embedding
  match if leaf.field.isPacked then none else leaf.field.relation with
  | some relation =>
      if mapper.storesAtOnce draft.operation relation then do
        let value ← draft.presentValue knownKey className leaf.field relation leaf.value
        return some ⟨name, value, leaf.field.isIndexed⟩
      else return none
  | none => do
      leaf.field.refuseNull className leaf.value
      let value ← mapper.storedValue leaf.field leaf.value
      return some ⟨name, value, leaf.field.isIndexed && !leaf.field.isPacked⟩

theorem putOf_eq_of_sameSetting (same : draft.SameSetting next) :
    mapper.putOf knownKey next = mapper.putOf knownKey draft := by
  funext leaf
  simp only [putOf, Draft.classNameIn, same.schema, same.operation,
    Draft.presentValue_eq_of_key same.key]

/-- **One leaf.** It notes its relation and then puts its property, unless that fails. -/
theorem storeLeaf_eq (mapper : Mapper) (knownKey : Reference → Option Key) (leaf : Leaf)
    (draft : Draft) :
    mapper.storeLeaf knownKey leaf.embedding leaf.position leaf.field leaf.value draft =
      match mapper.putOf knownKey draft leaf with
      | .ok put => .ok () ((draft.noting (mapper.notedOf leaf)).putAll put.toList)
      | .error error => .error error (draft.noting (mapper.notedOf leaf)) := by
  unfold storeLeaf putOf notedOf
  cases relates : (if leaf.field.isPacked = true then none else leaf.field.relation) with
  | none =>
      simp only [Option.map_none, Draft.noting_none]
      rw [get_bind]
      cases leaf.field.refuseNull (draft.classNameIn leaf.embedding) leaf.value with
      | error error => rfl
      | ok _ =>
          cases mapper.storedValue leaf.field leaf.value with
          | error error => rfl
          | ok value => rfl
  | some relation =>
      simp only [Option.map_some]
      generalize noted : (Pending.mk leaf.field relation _ _ leaf.value) = pending
      have later : mapper.noteRelation knownKey leaf.embedding leaf.position leaf.field relation
          leaf.value draft =
            (if mapper.storesAtOnce draft.operation relation then do
              let value ← draft.presentValue knownKey (draft.classNameIn leaf.embedding) leaf.field
                relation leaf.value
              set ((draft.noting (some pending)).put (mapper.propertyIn leaf.embedding leaf.field)
                leaf.field.isIndexed value)
            else pure () : Attempt Draft Unit) (draft.noting (some pending)) := by
        have same : (draft.noting (some pending)).key = draft.key := rfl
        rw [← Draft.presentValue_eq_of_key same, ← noted]
        rfl
      rw [later]
      by_cases atOnce : mapper.storesAtOnce draft.operation relation = true
      · simp only [atOnce, ↓reduceIte]
        cases draft.presentValue knownKey (draft.classNameIn leaf.embedding) leaf.field relation
            leaf.value with
        | error error => rfl
        | ok value => rfl
      · simp only [atOnce]
        rfl

/-- Stores what is reached in a value, if it is a leaf. -/
def storeReached (mapper : Mapper) (knownKey : Reference → Option Key) (reached : Outcome Leaf) :
    Attempt Draft Unit := do
  let leaf ← reached
  mapper.storeLeaf knownKey leaf.embedding leaf.position leaf.field leaf.value

theorem storeReached_gives (done : (mapper.storeReached knownKey reached).Gives draft () next) :
    ∃ leaf put, reached = .ok leaf ∧ mapper.putOf knownKey draft leaf = .ok put ∧
      next = (draft.noting (mapper.notedOf leaf)).putAll put.toList := by
  obtain ⟨leaf, middle, found, stored⟩ := Gives.bind done
  obtain ⟨rfl, rfl⟩ := found.lift
  rw [Gives, storeLeaf_eq] at stored
  cases given : mapper.putOf knownKey middle leaf with
  | error error =>
      rw [given] at stored
      contradiction
  | ok put =>
      rw [given] at stored
      exact ⟨leaf, put, rfl, given, (EStateM.Result.ok.inj stored).2.symm⟩

theorem storeReached_fails (failed : (mapper.storeReached knownKey reached).Fails draft error final) :
    (reached >>= mapper.putOf knownKey draft) = .error error ∧ final.record = draft.record := by
  rcases Fails.bind failed with absent | ⟨leaf, middle, found, stored⟩
  · obtain ⟨rfl, rfl⟩ := absent.lift
    exact ⟨rfl, rfl⟩
  · obtain ⟨rfl, rfl⟩ := found.lift
    rw [Fails, storeLeaf_eq] at stored
    cases given : mapper.putOf knownKey middle leaf with
    | ok put =>
        rw [given] at stored
        contradiction
    | error cause =>
        rw [given] at stored
        obtain ⟨rfl, rfl⟩ := EStateM.Result.error.inj stored
        exact ⟨given, rfl⟩

/-! ## The leaves of a value -/

mutual

/-- **A value is stored leaf by leaf.** The induction follows the tree of embedded objects; the
operation, by which fields are written, stays the same from leaf to leaf. -/
theorem storeField_eq_each {embedding : Option (Embedding Field)} {position : Nat} :
    (field : Field) → (value : FieldValue) → (draft : Draft) →
      mapper.storeField knownKey embedding position field value draft =
        each (field.leaves draft.operation embedding position value)
          (mapper.storeReached knownKey) draft
  | ⟨attributes, none⟩, value, draft => by
      rw [storeField, Field.leaves, get_bind]
      by_cases written : (⟨attributes, none⟩ : Field).isWrittenBy draft.operation = true
      · simp only [written, ↓reduceIte]
        rw [each_singleton]
        rfl
      · simp only [written]
        rfl
  | ⟨attributes, some ⟨⟨name, kind, inheritance, isEmbeddable, fields⟩, overrides⟩⟩, value,
      draft => by
      rw [storeField, Field.leaves, get_bind]
      by_cases written : Field.isWrittenBy
          ⟨attributes, some ⟨⟨name, kind, inheritance, isEmbeddable, fields⟩, overrides⟩⟩
          draft.operation = true
      · simp only [written, ↓reduceIte]
        cases embeddedValues ⟨attributes, some ⟨⟨name, kind, inheritance, isEmbeddable, fields⟩,
            overrides⟩⟩ ⟨name, kind, inheritance, isEmbeddable, fields⟩ value with
        | error error => rfl
        | ok values => exact storeFields_eq_each fields values draft
      · simp only [written]
        rfl

theorem storeFields_eq_each {embedding : Option (Embedding Field)} {position : Nat} :
    (fields : List Field) → (values : List FieldValue) → (draft : Draft) →
      mapper.storeFields knownKey embedding position fields values draft =
        each (Field.leavesOf draft.operation embedding position fields values)
          (mapper.storeReached knownKey) draft
  | [], _, _ => rfl
  | field :: rest, values, draft => by
      rw [storeFields, Field.leavesOf, each_append]
      cases done : mapper.storeField knownKey embedding position field (values.headD .null) draft with
      | error error middle =>
          have listed := (storeField_eq_each field (values.headD .null) draft).symm.trans done
          rw [bind_of_error done, bind_of_error listed]
      | ok _ middle =>
          have turn : Draft.Turn True draft middle :=
            (storeField_keeps (fun _ _ => trivial) field (values.headD .null) draft).of_ok done
          have listed := (storeField_eq_each field (values.headD .null) draft).symm.trans done
          rw [bind_of_ok done, bind_of_ok listed, storeFields_eq_each rest values.tail middle,
            turn.operation]

end

/-! ## Laws that fields keep -/

section

variable {law : Law Draft} {position : Nat} {value : FieldValue} {field : Field}
  {provide : Nat → Outcome FieldValue}

/-- Storing a leaf notes a relation and puts properties, at most. -/
theorem keeps_storeReached (lenient : ∀ draft error, law.reports draft error)
    (stores : ∀ noted properties, law.allows draft ((draft.noting noted).putAll properties)) :
    (mapper.storeReached knownKey reached).Keeps law draft := by
  unfold storeReached
  apply keeps_outcome_bind fun error _ => lenient draft error
  intro leaf _
  unfold Keeps
  rw [storeLeaf_eq]
  cases mapper.putOf knownKey draft leaf with
  | ok put => exact stores _ _
  | error error => exact ⟨stores _ [], lenient draft error⟩

theorem keeps_storeField
    (leaves : ∀ draft reached, (mapper.storeReached knownKey reached).Keeps law draft)
    {embedding : Option (Embedding Field)} :
    (mapper.storeField knownKey embedding position field value).Keeps law draft := by
  unfold Keeps
  rw [storeField_eq_each]
  exact keeps_each fun reached _ draft => leaves draft reached

/-- **What fields keep.** A law that minds no error is kept by every field if the rules for the
primary key and for the parent keep it, and the leaves of values do. -/
theorem keeps_fillField (lenient : ∀ draft error, law.reports draft error)
    (primary : ∀ draft given origin, law.Governs draft (draft.applyPrimaryKey given origin))
    (parent : ∀ draft given, law.Governs draft (draft.applyParent given))
    (leaves : ∀ draft reached, (mapper.storeReached knownKey reached).Keeps law draft) :
    (mapper.fillField knownKey position value).Keeps law draft := by
  have silent {α : Type} {draft : Draft} (outcome : Outcome α) :
      Reports (law.reports draft) outcome := fun error _ => lenient draft error
  have identifies {draft : Draft} {field : Field} :
      law.Governs draft (draft.setIdentifier field value) :=
    Law.governs_bind (silent _) fun _ _ => Law.governs_bind (silent _) fun _ _ => primary _ _ _
  unfold fillField
  apply keeps_get_bind
  apply keeps_outcome_bind (silent _)
  intro field _
  split
  case h_1 =>
    apply keeps_update
    apply Law.governs_bind (silent _)
    intro form _
    split
    · exact Law.governs_bind (silent _) fun _ _ => primary _ _ _
    · split
      · exact lenient _ _
      · exact Law.governs_bind (silent _) fun _ _ => primary _ _ _
    · exact Law.governs_bind (silent _) fun _ _ => primary _ _ _
  case h_2 =>
    apply keeps_update
    apply Law.governs_bind (silent _)
    exact fun _ _ => Law.governs_bind (silent _) fun _ _ => parent _ _
  case h_3 => exact keeps_update identifies
  case h_4 => exact keeps_update identifies
  case h_5 => exact keeps_storeField leaves

theorem keeps_fillFields (lenient : ∀ draft error, law.reports draft error)
    (filled : ∀ draft position value, (mapper.fillField knownKey position value).Keeps law draft)
    {positions : List Nat} :
    (mapper.fillFields knownKey provide positions).Keeps law draft :=
  keeps_each fun _ _ draft =>
    keeps_outcome_bind (fun error _ => lenient draft error) fun _ _ => filled _ _ _

end

end Mapper

end RecordMapping
