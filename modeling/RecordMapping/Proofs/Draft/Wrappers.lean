import RecordMapping.Proofs.Draft.Likeness

/-!
# Wrappers are invisible

A wrapper that tracks the changes of a value is no part of it. A draft that is filled with wrapped
values cannot be told from one that is filled with bare ones, but for the wrappers in the values of
the relations that wait in it, and these are invisible again when the relations are resolved
(`Mapper.fillField_ignores_wrappers`). Values that are packed are handed to whoever packs them, who
may see the wrappers inside; so of these only the outer wrappers are invisible.
-/

namespace RecordMapping

open Attempt

namespace Field

mutual

/-- The value of a field without the wrappers that storing it cannot see. -/
def unwrapped : Field → FieldValue → FieldValue
  | ⟨attributes, none⟩, value => if attributes.isPacked then value.bare else value.plain
  | ⟨_, some ⟨⟨_, _, _, _, fields⟩, _⟩⟩, value =>
      match value.bare with
      | .embedded values => .embedded (unwrappedAll fields values)
      | _ => value.plain

/-- The same for the values of the fields of an embedded object. -/
def unwrappedAll : List Field → List FieldValue → List FieldValue
  | [], values => values.map FieldValue.plain
  | _ :: _, [] => []
  | field :: rest, value :: values => unwrapped field value :: unwrappedAll rest values

end

variable {field : Field} {attributes : FieldAttributes} {inner : Embedding Field}
  {value twin : FieldValue} {values : List FieldValue}

theorem length_unwrappedAll (fields : List Field) (values : List FieldValue) :
    (unwrappedAll fields values).length = values.length := by
  induction fields generalizing values with
  | nil => rw [unwrappedAll, List.length_map]
  | cons field rest ih =>
      cases values with
      | nil => rfl
      | cons value others => rw [unwrappedAll, List.length_cons, List.length_cons, ih]

theorem unwrapped_of_embedded (found : value.bare = .embedded values) :
    unwrapped ⟨attributes, some inner⟩ value =
      .embedded (unwrappedAll inner.schema.fields values) := by
  obtain ⟨⟨_, _, _, _, fields⟩, _⟩ := inner
  rw [unwrapped, found]

theorem unwrapped_of_not_embedded (other : ∀ values, value.bare ≠ .embedded values) :
    unwrapped ⟨attributes, some inner⟩ value = value.plain := by
  obtain ⟨⟨_, _, _, _, fields⟩, _⟩ := inner
  rw [unwrapped]
  split
  case h_1 values found => exact (other values found).elim
  case h_2 => rfl

theorem plain_ne_embedded (other : ∀ values, value.bare ≠ .embedded values) :
    value.plain ≠ .embedded values := by
  rcases value.plain_cases with same | ⟨items, -, plain⟩ | ⟨values, found, -⟩
  · rw [same]
    exact other values
  · rw [plain]
    nofun
  · exact (other values found).elim

/-- Values for an embedded object that storing cannot tell apart are both embedded objects, whose
parts cannot be told apart, or both something else. -/
theorem embedded_or_plain
    (like : unwrapped ⟨attributes, some inner⟩ twin = unwrapped ⟨attributes, some inner⟩ value) :
    (∃ values others, value.bare = .embedded values ∧ twin.bare = .embedded others ∧
        unwrappedAll inner.schema.fields others = unwrappedAll inner.schema.fields values) ∨
      ((∀ values, value.bare ≠ .embedded values) ∧ (∀ values, twin.bare ≠ .embedded values) ∧
        twin.plain = value.plain) := by
  by_cases embeds : ∃ values, value.bare = .embedded values
  · obtain ⟨values, found⟩ := embeds
    rw [unwrapped_of_embedded found] at like
    by_cases embedsToo : ∃ others, twin.bare = .embedded others
    · obtain ⟨others, foundToo⟩ := embedsToo
      rw [unwrapped_of_embedded foundToo] at like
      exact .inl ⟨values, others, found, foundToo, FieldValue.embedded.inj like⟩
    · rw [not_exists] at embedsToo
      rw [unwrapped_of_not_embedded embedsToo] at like
      exact (plain_ne_embedded embedsToo like).elim
  · rw [not_exists] at embeds
    rw [unwrapped_of_not_embedded embeds] at like
    by_cases embedsToo : ∃ others, twin.bare = .embedded others
    · obtain ⟨others, foundToo⟩ := embedsToo
      rw [unwrapped_of_embedded foundToo] at like
      exact (plain_ne_embedded embeds like.symm).elim
    · rw [not_exists] at embedsToo
      rw [unwrapped_of_not_embedded embedsToo] at like
      exact .inr ⟨embeds, embedsToo, like⟩

theorem plain_eq_of_unwrapped
    (like : unwrapped ⟨attributes, none⟩ twin = unwrapped ⟨attributes, none⟩ value) :
    twin.plain = value.plain := by
  rw [unwrapped, unwrapped] at like
  by_cases packed : attributes.isPacked = true
  · simp only [packed, ↓reduceIte] at like
    rw [← twin.plain_bare, ← value.plain_bare, like]
  · simp only [packed] at like
    exact like

/-- Embedded objects apart, values that storing cannot tell apart are the same without wrappers. -/
theorem plain_eq_or_embedded (like : field.unwrapped twin = field.unwrapped value) :
    twin.plain = value.plain ∨
      ∃ values others, value.bare = .embedded values ∧ twin.bare = .embedded others := by
  obtain ⟨attributes, _ | inner⟩ := field
  · exact .inl (plain_eq_of_unwrapped like)
  · rcases embedded_or_plain like with ⟨values, others, found, foundToo, -⟩ | ⟨-, -, plain⟩
    · exact .inr ⟨values, others, found, foundToo⟩
    · exact .inl plain

end Field

/-! ## Parts of the key -/

namespace Draft

variable {draft : Draft} {field : Field} {value twin : FieldValue}

/-- What is read of a value for the key is the same for all values that storing cannot tell apart:
an embedded object is no part of a key, whatever it holds. -/
theorem keyRules_eq_of_unwrapped (like : field.unwrapped twin = field.unwrapped value) :
    draft.setPrimaryKey field twin = draft.setPrimaryKey field value ∧
      draft.setIdentifier field twin = draft.setIdentifier field value ∧
      draft.setParentField field twin = draft.setParentField field value := by
  rcases Field.plain_eq_or_embedded like with plain | ⟨values, others, found, foundToo⟩
  · refine ⟨?_, ?_, ?_⟩
    · rw [← setPrimaryKey_plain, plain, setPrimaryKey_plain]
    · rw [← setIdentifier_plain, plain, setIdentifier_plain]
    · rw [← setParentField_plain, plain, setParentField_plain]
  · have whole : wholeKey field twin = wholeKey field value := by
      rw [wholeKey, wholeKey, found, foundToo]
      rfl
    have identified : draft.identifiedKey field twin = draft.identifiedKey field value := by
      rw [identifiedKey, identifiedKey, found, foundToo]
      rfl
    refine ⟨?_, ?_, ?_⟩
    · simp only [setPrimaryKey, whole, identified, found, foundToo, FieldValue.isNull]
    · simp only [setIdentifier, identified]
    · simp only [setParentField, whole]

end Draft

/-! ## Leaves -/

/-- Two leaves of the same field whose values differ in wrappers at most, or in outer wrappers if
the field is packed. -/
structure Leaf.Alike (first second : Leaf) : Prop where
  embedding : second.embedding = first.embedding
  position : second.position = first.position
  field : second.field = first.field
  packed : first.field.isPacked = true → second.value.bare = first.value.bare
  plain : second.value.plain = first.value.plain

/-- What is reached in two values: leaves that are alike, or the same error. -/
inductive Leaf.ReachedAlike : Outcome Leaf → Outcome Leaf → Prop where
  | ok {first second : Leaf} (alike : first.Alike second) : ReachedAlike (.ok first) (.ok second)
  | error (error : MappingError) : ReachedAlike (.error error) (.error error)

namespace Mapper

variable {field : Field} {schema : Schema} {value : FieldValue} {values : List FieldValue}

theorem embeddedValues_plain (other : ∀ values, value.bare ≠ .embedded values) :
    embeddedValues field schema value.plain = embeddedValues field schema value := by
  unfold embeddedValues
  rw [value.bare_plain]
  rcases value.plain_cases with same | ⟨items, found, plain⟩ | ⟨values, found, -⟩
  · rw [same]
  · rw [plain, found]
    rfl
  · exact (other values found).elim

theorem embeddedValues_of_embedded (found : value.bare = .embedded values) :
    embeddedValues field schema value =
      if schema.fields.length < values.length then
        .error (field.unsupported
          (.tooManyEmbedded schema.name schema.fields.length values.length))
      else .ok values := by
  rw [embeddedValues, found]

end Mapper

namespace Field

mutual

/-- **The leaves of values that storing cannot tell apart.** The induction follows the tree of
embedded objects; a value that is missing in both is null in both. -/
theorem leaves_alike {operation : Operation} {embedding : Option (Embedding Field)}
    {position : Nat} :
    (field : Field) → (value twin : FieldValue) →
      field.unwrapped twin = field.unwrapped value →
      List.Forall₂ Leaf.ReachedAlike (field.leaves operation embedding position value)
        (field.leaves operation embedding position twin)
  | ⟨attributes, none⟩, value, twin, like => by
      rw [leaves, leaves]
      split
      · apply List.Forall₂.cons _ .nil
        refine .ok ⟨rfl, rfl, rfl, fun packed => ?_, plain_eq_of_unwrapped like⟩
        rw [unwrapped, unwrapped, if_pos packed, if_pos packed] at like
        exact like
      · exact .nil
  | ⟨attributes, some ⟨⟨name, kind, inheritance, isEmbeddable, fields⟩, overrides⟩⟩, value, twin,
      like => by
      rw [leaves, leaves]
      split
      · rcases embedded_or_plain like with ⟨values, others, found, foundToo, likeAll⟩ |
          ⟨other, otherToo, plain⟩
        · rw [Mapper.embeddedValues_of_embedded found, Mapper.embeddedValues_of_embedded foundToo,
            ← length_unwrappedAll fields others, likeAll, length_unwrappedAll]
          by_cases many : fields.length < values.length
          · simp only [many, ↓reduceIte]
            exact .cons (.error _) .nil
          · simp only [many, ↓reduceIte]
            exact leavesOf_alike fields values others likeAll
        · rw [← Mapper.embeddedValues_plain otherToo, plain, Mapper.embeddedValues_plain other]
          split
          · exact leavesOf_alike fields _ _ rfl
          · exact .cons (.error _) .nil
      · exact .nil

theorem leavesOf_alike {operation : Operation} {embedding : Option (Embedding Field)}
    {position : Nat} :
    (fields : List Field) → (values others : List FieldValue) →
      unwrappedAll fields others = unwrappedAll fields values →
      List.Forall₂ Leaf.ReachedAlike (leavesOf operation embedding position fields values)
        (leavesOf operation embedding position fields others)
  | [], _, _, _ => .nil
  | field :: rest, values, others, like => by
      have first : field.unwrapped (others.headD .null) = field.unwrapped (values.headD .null) ∧
          unwrappedAll rest others.tail = unwrappedAll rest values.tail := by
        cases values with
        | nil =>
            cases others with
            | nil => exact ⟨rfl, rfl⟩
            | cons _ _ => exact (List.cons_ne_nil _ _ like).elim
        | cons value values =>
            cases others with
            | nil => exact (List.cons_ne_nil _ _ like.symm).elim
            | cons twin others => exact List.cons.inj like
      rw [leavesOf, leavesOf]
      exact List.rel_append (leaves_alike field _ _ first.1) (leavesOf_alike rest _ _ first.2)

end

end Field

/-! ## Filling a draft -/

/-- Two values that differ in wrappers at most. -/
def FieldValue.Alike (first second : FieldValue) : Prop :=
  second.plain = first.plain

theorem Draft.Alike.rfl {draft : Draft} : draft.Alike FieldValue.Alike draft :=
  ⟨.refl _, .refl _, .refl _, .refl _, .refl _, .refl _,
    List.forall₂_same.mpr fun _ _ => ⟨.refl _, .refl _, .refl _, .refl _, .refl _⟩⟩

namespace Mapper

variable {mapper : Mapper} {knownKey : Reference → Option Key} {draft twin : Draft}
  {first second : Leaf}

theorem notedOf_alike (leaves : first.Alike second) :
    List.Forall₂ (Pending.Alike FieldValue.Alike) (mapper.notedOf first).toList
      (mapper.notedOf second).toList := by
  obtain ⟨_, _, _, value⟩ := first
  obtain ⟨embedding, position, field, other⟩ := second
  obtain ⟨rfl, rfl, rfl, -, plain⟩ := leaves
  unfold notedOf
  cases if field.isPacked = true then none else field.relation with
  | none => exact .nil
  | some relation => exact .cons ⟨rfl, rfl, rfl, rfl, plain⟩ .nil

theorem putOf_eq_of_alike (leaves : first.Alike second) :
    mapper.putOf knownKey draft second = mapper.putOf knownKey draft first := by
  obtain ⟨_, _, _, value⟩ := first
  obtain ⟨embedding, position, field, other⟩ := second
  obtain ⟨rfl, rfl, rfl, packed, plain⟩ := leaves
  simp only at packed plain
  have nulls : field.refuseNull (draft.classNameIn embedding) other =
      field.refuseNull (draft.classNameIn embedding) value := by
    rw [← field.refuseNull_plain, plain, field.refuseNull_plain]
  have stored : mapper.storedValue field other = mapper.storedValue field value := by
    unfold storedValue
    split
    case isTrue whole =>
      rw [← mapper.conversion.packed_bare, packed whole, mapper.conversion.packed_bare]
    case isFalse => rw [← mapper.conversion.stored_plain, plain, mapper.conversion.stored_plain]
  have present (relation : Relation) :
      draft.presentValue knownKey (draft.classNameIn embedding) field relation other =
        draft.presentValue knownKey (draft.classNameIn embedding) field relation value := by
    rw [← draft.presentValue_plain, plain, draft.presentValue_plain]
  simp only [putOf, nulls, stored, present]

theorem storeReached_agrees {reached reachedToo : Outcome Leaf}
    (alike : Leaf.ReachedAlike reached reachedToo) (drafts : draft.Alike FieldValue.Alike twin) :
    Agree (Draft.Alike FieldValue.Alike) (mapper.storeReached knownKey reached draft)
      (mapper.storeReached knownKey reachedToo twin) := by
  cases alike with
  | error error => exact .error drafts
  | @ok first second leaves =>
      have setting : draft.SameSetting twin :=
        ⟨congrArg Record.key drafts.record, drafts.schema, drafts.operation⟩
      have noted : (draft.noting (mapper.notedOf first)).Alike FieldValue.Alike
          (twin.noting (mapper.notedOf second)) :=
        { drafts with pending := List.rel_append drafts.pending (notedOf_alike leaves) }
      change Agree _ (mapper.storeLeaf knownKey _ _ _ _ draft) (mapper.storeLeaf knownKey _ _ _ _ twin)
      rw [storeLeaf_eq, storeLeaf_eq, putOf_eq_of_sameSetting setting, putOf_eq_of_alike leaves]
      cases mapper.putOf knownKey draft first with
      | error error => exact .error noted
      | ok put => exact .ok { noted with record := by rw [Draft.putAll, Draft.putAll, noted.record] }

/-- A draft is filled alike with values that storing cannot tell apart. -/
theorem fillField_agrees {position : Nat} {value other : FieldValue}
    (like : ∀ field, draft.schema.field position = .ok field →
      field.unwrapped other = field.unwrapped value) :
    Agree (Draft.Alike FieldValue.Alike) (mapper.fillField knownKey position value draft)
      (mapper.fillField knownKey position other draft) := by
  cases found : draft.schema.field position with
  | error error =>
      unfold fillField
      rw [get_bind, get_bind, found]
      exact .error .rfl
  | ok field =>
      rw [fillField_eq found, fillField_eq found]
      obtain ⟨primary, identifier, parent⟩ := Draft.keyRules_eq_of_unwrapped (like field found)
      have updated {rule ruleToo : Draft → Outcome Draft} (same : ruleToo draft = rule draft) :
          Agree (Draft.Alike FieldValue.Alike) (Attempt.update rule draft)
            (Attempt.update ruleToo draft) := by
        rw [Attempt.update, Attempt.update, same]
        exact .refl (fun _ => .rfl) _
      have stored : Agree (Draft.Alike FieldValue.Alike)
          (mapper.storeField knownKey none position field value draft)
          (mapper.storeField knownKey none position field other draft) := by
        rw [storeField_eq_each, storeField_eq_each]
        apply agree_each (Field.leaves_alike field value other (like field found)) _ .rfl
        exact fun _ _ reached _ _ drafts => storeReached_agrees reached drafts
      cases field.role with
      | primaryKey => exact updated primary
      | parentKey => exact updated parent
      | primaryKeyName => exact updated identifier
      | primaryKeyId => exact updated identifier
      | relation => exact stored
      | regular => exact stored

end Mapper

/-! ## Resolving the relations afterwards -/

/-- A framework that writes the same references for values that differ in wrappers at most. It sees
the values of relations nowhere else. -/
def Framework.IgnoresWrappers {World : Type} (framework : Framework World) : Prop :=
  ∀ owner field first second, FieldValue.Alike first second →
    framework.writeReference owner field second = framework.writeReference owner field first

theorem Framework.IgnoresWrappers.alike {World : Type} {framework : Framework World}
    (ignores : framework.IgnoresWrappers) : framework.Alike FieldValue.Alike Eq framework :=
  framework.alike_reading framework.fieldValue ignores

namespace Mapper

/-- **Wrappers are invisible.** Values that are equal without wrappers, but for those inside packed
values, fill the field at a position with the same result, and leave drafts that differ in wrappers
around the values of waiting relations at most. Resolving these relations gives the same result,
record, registry and world, unless the framework itself looks at the wrappers. -/
theorem fillField_ignores_wrappers (mapper : Mapper) (knownKey : Reference → Option Key)
    (draft : Draft) (position : Nat) (first second : FieldValue)
    (like : ∀ field, draft.schema.field position = .ok field →
      field.unwrapped second = field.unwrapped first) :
    let filled := (mapper.fillField knownKey position first).outcome draft
    let filledToo := (mapper.fillField knownKey position second).outcome draft
    filledToo.1 = filled.1 ∧ filled.2.Alike FieldValue.Alike filledToo.2 ∧
      ∀ {World : Type} (framework : Framework World) (around : Surroundings World),
        framework.IgnoresWrappers →
          let resolved := (mapper.resolve framework).outcome ⟨filled.2, around⟩
          let resolvedToo := (mapper.resolve framework).outcome ⟨filledToo.2, around⟩
          resolvedToo.1 = resolved.1 ∧ resolvedToo.2.surroundings = resolved.2.surroundings ∧
            resolvedToo.2.draft.record = resolved.2.draft.record := by
  intro filled filledToo
  obtain ⟨same, drafts⟩ := (fillField_agrees like : Agree _ (mapper.fillField knownKey position first
    draft) _).outcome
  refine ⟨same.symm, drafts, ?_⟩
  intro World framework around ignores resolved resolvedToo
  have spaces : Workspace.Alike FieldValue.Alike Eq ⟨filled.2, around⟩ ⟨filledToo.2, around⟩ :=
    ⟨drafts, rfl, rfl⟩
  have resolves : Agree (Workspace.Alike FieldValue.Alike Eq)
      (mapper.resolve framework ⟨filled.2, around⟩)
      (mapper.resolve framework ⟨filledToo.2, around⟩) :=
    resolve_agrees ignores.alike (fun alike => alike) (fun _ _ => rfl) spaces
  obtain ⟨sameToo, left⟩ := resolves.outcome
  exact ⟨sameToo.symm, left.surroundings.eq, left.draft.record⟩

/-- The books of a library in wrappers, and the same books bare. A new library is filled with either
alike. -/
theorem fillField_ignores_wrappers_books :
    ∃ filled filledToo,
      libraryMapper.fillField (fun _ => none) 1 (.list [.object book]) libraryWithBooks =
        .ok () filled ∧
      libraryMapper.fillField (fun _ => none) 1 (.tracked (.list [.tracked (.object book)]))
        libraryWithBooks = .ok () filledToo ∧
      filled.Alike FieldValue.Alike filledToo ∧
      ((libraryMapper.resolve flushingFramework).outcome ⟨filledToo, ⟨{}, none⟩⟩).2.draft.record =
        ((libraryMapper.resolve flushingFramework).outcome ⟨filled, ⟨{}, none⟩⟩).2.draft.record := by
  have like (field : Field) (found : libraryWithBooks.schema.field 1 = .ok field) :
      field.unwrapped (.tracked (.list [.tracked (.object book)])) =
        field.unwrapped (.list [.object book]) := by
    obtain rfl := Except.ok.inj found
    rfl
  have ignores : flushingFramework.IgnoresWrappers := fun _ _ _ _ _ => rfl
  obtain ⟨-, drafts, resolves⟩ := fillField_ignores_wrappers libraryMapper (fun _ => none)
    libraryWithBooks 1 (.list [.object book]) (.tracked (.list [.tracked (.object book)])) like
  obtain ⟨-, -, record⟩ := resolves flushingFramework ⟨{}, none⟩ ignores
  exact ⟨_, _, rfl, rfl, drafts, record⟩

end Mapper

end RecordMapping
