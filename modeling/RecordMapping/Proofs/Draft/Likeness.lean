import RecordMapping.Proofs.Attempt.Agreement
import RecordMapping.Proofs.Draft.Leaves
import RecordMapping.Proofs.Draft.LostRelations
import RecordMapping.Proofs.Value.Plain

/-!
# Runs that cannot be told apart

Resolving relations asks a framework for keys and the states of objects, and passes on the values of
relations. Two frameworks that answer alike in worlds that are alike, for values that differ in
wrappers at most, resolve the relations of two drafts alike (`Mapper.resolve_agrees`): with the same
result, record and registry, and leaving worlds that are alike again. The worlds may be of different
types, and an error that is tolerated need not occur in both.
-/

namespace RecordMapping

open Attempt

/-- Two noted relations that differ in their values at most. -/
structure Pending.Alike (same : FieldValue → FieldValue → Prop) (first second : Pending) : Prop where
  field : second.field = first.field
  relation : second.relation = first.relation
  position : second.position = first.position
  property : second.property = first.property
  value : same first.value second.value

/-- Two drafts that differ in the values of the relations that wait in them at most. -/
structure Draft.Alike (same : FieldValue → FieldValue → Prop) (first second : Draft) : Prop where
  object : second.object = first.object
  schema : second.schema = first.schema
  operation : second.operation = first.operation
  record : second.record = first.record
  keyOrigin : second.keyOrigin = first.keyOrigin
  parentOrigin : second.parentOrigin = first.parentOrigin
  pending : List.Forall₂ (Pending.Alike same) first.pending second.pending

section

variable {World Other : Type}

/-- The same registry around worlds that are alike. -/
structure Surroundings.Alike (alike : World → Other → Prop) (first : Surroundings World)
    (second : Surroundings Other) : Prop where
  registry : second.registry = first.registry
  world : alike first.world second.world

structure Workspace.Alike (same : FieldValue → FieldValue → Prop) (alike : World → Other → Prop)
    (first : Workspace World) (second : Workspace Other) : Prop where
  draft : first.draft.Alike same second.draft
  surroundings : first.surroundings.Alike alike second.surroundings

/-- Two frameworks that answer alike in worlds that are alike. Nothing is asked of the values of
fields, which are read before anything else, and references and callbacks may differ in whether they
report an object that is not stored yet. -/
structure Framework.Alike (same : FieldValue → FieldValue → Prop) (alike : World → Other → Prop)
    (first : Framework World) (second : Framework Other) : Prop where
  knownKey : ∀ {world other}, alike world other → second.knownKey other = first.knownKey world
  isDeleted : ∀ {world other}, alike world other → second.isDeleted other = first.isDeleted world
  isDetached : ∀ {world other}, alike world other →
    second.isDetached other = first.isDetached world
  isManaged : ∀ {world other}, alike world other → second.isManaged other = first.isManaged world
  setField : ∀ object position value {world other}, alike world other →
    Agree alike (first.setField object position value world)
      (second.setField object position value other)
  persist : ∀ object {around other}, Surroundings.Alike alike around other →
    Agree (Surroundings.Alike alike) (first.persist object around) (second.persist object other)
  flush : ∀ object {around other}, Surroundings.Alike alike around other →
    Agree (Surroundings.Alike alike) (first.flush object around) (second.flush object other)
  writeReference : ∀ owner field {value twin} record {world other}, same value twin →
    alike world other → Agree (fun pair twin => twin.1 = pair.1 ∧ alike pair.2 twin.2)
      ((first.writeReference owner field value).tolerant (record, world))
      ((second.writeReference owner field twin).tolerant (record, other))
  inserted : ∀ owner field {world other}, alike world other →
    Agree alike ((first.inserted owner field).tolerant world)
      ((second.inserted owner field).tolerant other)
  updated : ∀ owner field {world other}, alike world other →
    Agree alike ((first.updated owner field).tolerant world)
      ((second.updated owner field).tolerant other)

theorem Surroundings.Alike.eq {first second : Surroundings World} (around : first.Alike Eq second) :
    second = first :=
  congrArg₂ Surroundings.mk around.registry around.world.symm

/-- A framework answers like itself, also if other values of fields are read, as long as it writes
the same references for values that are the same. -/
theorem Framework.alike_reading {same : FieldValue → FieldValue → Prop}
    (framework : Framework World) (fieldValue : World → Reference → Nat → Outcome FieldValue)
    (writes : ∀ owner field first second, same first second →
      framework.writeReference owner field second = framework.writeReference owner field first) :
    framework.Alike same Eq { framework with fieldValue } where
  knownKey := by rintro _ _ rfl; rfl
  isDeleted := by rintro _ _ rfl; rfl
  isDetached := by rintro _ _ rfl; rfl
  isManaged := by rintro _ _ rfl; rfl
  setField := by
    rintro _ _ _ _ _ rfl
    exact .refl (fun _ => rfl) _
  persist := by
    intro _ _ _ reached
    rw [reached.eq]
    exact .refl (fun _ => ⟨rfl, rfl⟩) _
  flush := by
    intro _ _ _ reached
    rw [reached.eq]
    exact .refl (fun _ => ⟨rfl, rfl⟩) _
  writeReference := by
    rintro owner field value twin _ _ _ alike rfl
    change Agree _ _ ((framework.writeReference owner field twin).tolerant _)
    rw [writes _ _ _ _ alike]
    exact .refl (fun _ => ⟨rfl, rfl⟩) _
  inserted := by
    rintro _ _ _ _ rfl
    exact .refl (fun _ => rfl) _
  updated := by
    rintro _ _ _ _ rfl
    exact .refl (fun _ => rfl) _

variable {same : FieldValue → FieldValue → Prop} {alike : World → Other → Prop}
  {first : Framework World} {second : Framework Other} {draft twin : Draft}

theorem Pending.Alike.eq {pending noted : Pending} (relations : pending.Alike Eq noted) :
    pending = noted := by
  obtain ⟨field, relation, position, property, value⟩ := relations
  cases pending
  cases noted
  simp only at field relation position property value
  rw [field, relation, position, property, value]

theorem Draft.Alike.eq (drafts : draft.Alike Eq twin) : twin = draft := by
  obtain ⟨object, schema, operation, record, keyOrigin, parentOrigin, pending⟩ := drafts
  have same : List.Forall₂ Eq draft.pending twin.pending := pending.imp fun _ _ => Pending.Alike.eq
  rw [List.forall₂_eq_eq_eq] at same
  cases draft
  cases twin
  simp only at object schema operation record keyOrigin parentOrigin same
  rw [object, schema, operation, record, keyOrigin, parentOrigin, same]

theorem Draft.Alike.refl (draft : Draft) : draft.Alike Eq draft :=
  ⟨rfl, rfl, rfl, rfl, rfl, rfl, List.forall₂_same.mpr fun _ _ => ⟨rfl, rfl, rfl, rfl, rfl⟩⟩

theorem Workspace.Alike.eq {space other : Workspace World} (spaces : space.Alike Eq Eq other) :
    other = space :=
  congrArg₂ Workspace.mk spaces.draft.eq spaces.surroundings.eq

namespace Draft

/-! ## Keys of related objects -/

theorem checkChild_eq (key : twin.key = draft.key) :
    twin.checkChild = draft.checkChild := by
  funext relation child
  rw [checkChild, checkChild, key]

theorem managedObject_agrees (frameworks : first.Alike same alike second) {child : Reference}
    {around : Surroundings World} {other : Surroundings Other} (reached : around.Alike alike other) :
    Agree (Surroundings.Alike alike) (managedObject first child around)
      (managedObject second child other) := by
  unfold managedObject
  apply agree_get_bind
  rw [frameworks.isManaged reached.world, frameworks.isDetached reached.world]
  split
  · exact agree_pure child reached
  · exact frameworks.persist child reached

theorem flushedKey_agrees (frameworks : first.Alike same alike second) {object : Reference}
    {around : Surroundings World} {other : Surroundings Other} (reached : around.Alike alike other) :
    Agree (Surroundings.Alike alike) (flushedKey first object around)
      (flushedKey second object other) := by
  unfold flushedKey
  apply agree_get_bind
  rw [frameworks.knownKey reached.world]
  cases first.knownKey around.world object with
  | some key => exact agree_pure key reached
  | none =>
      apply agree_bind (frameworks.flush object reached)
      intro _ flushed flushedOther reached
      apply agree_get_bind
      rw [frameworks.knownKey reached.world]
      cases first.knownKey flushed.world object with
      | some key => exact agree_pure key reached
      | none => exact agree_throw _ reached

theorem relatedKey_agrees (frameworks : first.Alike same alike second) (key : twin.key = draft.key)
    {relation : Relation} {child : Reference} {around : Surroundings World}
    {other : Surroundings Other} (reached : around.Alike alike other) :
    Agree (Surroundings.Alike alike) (relatedKey first draft relation child around)
      (relatedKey second twin relation child other) := by
  unfold relatedKey
  apply agree_get_bind
  rw [frameworks.knownKey reached.world, checkChild_eq key]
  cases first.knownKey around.world child with
  | some known => exact agree_outcome_bind reached fun _ => agree_pure _ reached
  | none =>
      apply agree_bind (managedObject_agrees frameworks reached)
      intro object _ _ reached
      apply agree_bind (flushedKey_agrees frameworks reached)
      intro found _ _ reached
      exact agree_outcome_bind reached fun _ => agree_pure _ reached

theorem relatedKeys_agrees (frameworks : first.Alike same alike second) (key : twin.key = draft.key)
    {relation : Relation} {children : List Reference} {around : Surroundings World}
    {other : Surroundings Other} (reached : around.Alike alike other) :
    Agree (Surroundings.Alike alike) (relatedKeys first draft relation children around)
      (relatedKeys second twin relation children other) := by
  induction children generalizing around other with
  | nil => exact agree_pure [] reached
  | cons child rest ih =>
      unfold relatedKeys
      apply agree_get_bind
      rw [frameworks.isDeleted reached.world]
      split
      · exact ih reached
      · apply agree_bind (relatedKey_agrees frameworks key reached)
        intro _ _ _ reached
        apply agree_bind (ih reached)
        intro _ _ _ reached
        exact agree_pure _ reached

theorem setField_agrees (frameworks : first.Alike same alike second) (object : Reference)
    (position : Nat) (value : FieldValue) {around : Surroundings World} {other : Surroundings Other}
    (reached : around.Alike alike other) :
    Agree (Surroundings.Alike alike)
      (Surroundings.onWorld (first.setField object position value) around)
      (Surroundings.onWorld (second.setField object position value) other) :=
  agree_onPart (frameworks.setField object position value reached.world)
    fun _ _ worlds => ⟨reached.registry, worlds⟩

theorem relatedValue_agrees (frameworks : first.Alike same alike second)
    (drafts : draft.Alike same twin) {pending : Pending} {child : Reference}
    {around : Surroundings World} {other : Surroundings Other} (reached : around.Alike alike other) :
    Agree (Surroundings.Alike alike) (relatedValue first draft pending child around)
      (relatedValue second twin pending child other) := by
  have key : twin.key = draft.key := congrArg Record.key drafts.record
  unfold relatedValue
  apply agree_get_bind
  rw [frameworks.isDeleted reached.world, drafts.object]
  split
  · exact agree_pure Value.null reached
  · apply agree_bind (relatedKey_agrees frameworks key reached)
    rintro ⟨object, found⟩ _ _ reached
    simp only
    by_cases replaced : object ≠ child
    · rw [if_pos replaced, if_pos replaced]
      cases pending.position with
      | none => exact agree_pure _ reached
      | some position =>
          apply agree_bind (setField_agrees frameworks _ _ _ reached)
          intro _ _ _ reached
          exact agree_pure _ reached
    · rw [if_neg replaced, if_neg replaced]
      exact agree_pure _ reached

/-- The stored value of one relation. Wrappers within its value do not matter. -/
theorem childKeys_agrees (frameworks : first.Alike same alike second)
    (plainly : ∀ {value twin}, same value twin → twin.plain = value.plain)
    (drafts : draft.Alike same twin) {pending noted : Pending} (relations : pending.Alike same noted)
    {around : Surroundings World} {other : Surroundings Other} (reached : around.Alike alike other) :
    Agree (Surroundings.Alike alike) (childKeys first draft pending around)
      (childKeys second twin noted other) := by
  have key : twin.key = draft.key := congrArg Record.key drafts.record
  have bare : { noted with value := noted.value.plain } =
      { pending with value := pending.value.plain } := by
    obtain ⟨field, relation, position, property, value⟩ := pending
    obtain ⟨_, _, _, _, other⟩ := noted
    obtain ⟨rfl, rfl, rfl, rfl, values⟩ := relations
    rw [plainly values]
  rw [← childKeys_plain second twin noted, ← childKeys_plain first draft pending, bare]
  generalize { pending with value := pending.value.plain } = pending
  unfold childKeys
  rw [drafts.schema]
  cases pending.value.bare with
  | null => exact agree_outcome_bind reached fun _ => agree_pure _ reached
  | object child =>
      by_cases single : pending.relation.isSingle = true
      · simp only [single, ↓reduceIte]
        exact relatedValue_agrees frameworks drafts reached
      · simp only [single]
        exact agree_throw _ reached
  | list items =>
      by_cases single : pending.relation.isSingle = true
      · simp only [single, ↓reduceIte]
        exact agree_throw _ reached
      · simp only [single]
        apply agree_bind (relatedKeys_agrees frameworks key reached)
        intro _ _ _ reached
        exact agree_pure _ reached
  | _ => exact agree_throw _ reached

/-! ## The record -/

variable {space : Workspace World} {other : Workspace Other}

theorem Alike.emptied (drafts : draft.Alike same twin) :
    Alike same { draft with pending := [] } { twin with pending := [] } :=
  ⟨drafts.object, drafts.schema, drafts.operation, drafts.record, drafts.keyOrigin,
    drafts.parentOrigin, .nil⟩

theorem Alike.put (drafts : draft.Alike same twin) (property : String) (indexed : Bool)
    (value : Value) : (draft.put property indexed value).Alike same (twin.put property indexed value) :=
  { drafts with record := by rw [Draft.put, Draft.put, drafts.record] }

theorem writeChildKeys_agrees (frameworks : first.Alike same alike second)
    (plainly : ∀ {value twin}, same value twin → twin.plain = value.plain)
    {pending noted : Pending} (relations : pending.Alike same noted)
    (spaces : space.Alike same alike other) :
    Agree (Workspace.Alike same alike) (writeChildKeys first pending space)
      (writeChildKeys second noted other) := by
  unfold writeChildKeys
  apply agree_get_bind
  apply agree_bind
  · apply agree_onPart (childKeys_agrees frameworks plainly spaces.draft relations
      spaces.surroundings)
    exact fun _ _ reached => ⟨spaces.draft, reached⟩
  · intro stored space other spaces'
    rw [relations.property, relations.field, spaces.draft.record]
    split
    · exact agree_pure false spaces'
    · exact .ok ⟨spaces'.draft.put _ _ _, spaces'.surroundings⟩

theorem writeAllChildKeys_agrees (frameworks : first.Alike same alike second)
    (plainly : ∀ {value twin}, same value twin → twin.plain = value.plain)
    {noted others : List Pending} (relations : List.Forall₂ (Pending.Alike same) noted others)
    (spaces : space.Alike same alike other) :
    Agree (Workspace.Alike same alike) (writeAllChildKeys first noted space)
      (writeAllChildKeys second others other) := by
  induction relations generalizing space other with
  | nil => exact agree_pure false spaces
  | cons here _ ih =>
      unfold writeAllChildKeys
      apply agree_bind (writeChildKeys_agrees frameworks plainly here spaces)
      intro _ _ _ spaces
      apply agree_bind (ih spaces)
      intro _ _ _ spaces
      exact agree_pure _ spaces

/-! ## References and callbacks -/

theorem presentKeys_lasting {knownKey : Reference → Option Key} {relation : Relation}
    {children : List Reference} :
    Reports (·.isProvisional = false) (draft.presentKeys knownKey relation children) := by
  induction children with
  | nil => exact reports_ok _
  | cons child rest ih =>
      apply reports_bind
      · unfold presentKey checkChild
        split
        · exact reports_ok _
        · split
          · exact reports_error rfl
          · exact reports_ok _
      · exact fun _ _ => reports_bind ih fun _ _ => reports_ok _

/-- A child in another place is not stored yet, but in the wrong place. -/
theorem checkChildren_lasting {knownKey : Reference → Option Key} {relation : Relation}
    {value : FieldValue} :
    Reports (·.isProvisional = false) (draft.checkChildren knownKey relation value) :=
  reports_bind presentKeys_lasting fun _ _ => reports_ok _

theorem tolerant_writeReference (framework : Framework World) (pending : Pending)
    (space : Workspace World) :
    (writeReference framework pending).tolerant space =
      (do
        if pending.relation.owned then
          space.draft.checkChildren (framework.knownKey space.world) pending.relation pending.value
        Workspace.onRecord (framework.writeReference space.draft.object pending.field
          pending.value).tolerant : Attempt (Workspace World) Unit) space := by
  unfold writeReference
  rw [tolerant_get_bind]
  cases pending.relation.owned with
  | true =>
      simp only [↓reduceIte]
      rw [tolerant_outcome_bind checkChildren_lasting]
      simp only [Workspace.onRecord, tolerant_onPart]
  | false => simp only [Bool.false_eq_true, ↓reduceIte, Workspace.onRecord, tolerant_onPart]

theorem writeReference_agrees (frameworks : first.Alike same alike second)
    (plainly : ∀ {value twin}, same value twin → twin.plain = value.plain)
    {pending noted : Pending} (relations : pending.Alike same noted)
    (spaces : space.Alike same alike other) :
    Agree (Workspace.Alike same alike) ((writeReference first pending).tolerant space)
      ((writeReference second noted).tolerant other) := by
  have written : Agree (Workspace.Alike same alike)
      (Workspace.onRecord (first.writeReference space.draft.object pending.field
        pending.value).tolerant space)
      (Workspace.onRecord (second.writeReference other.draft.object noted.field
        noted.value).tolerant other) := by
    apply agree_onPart
    · rw [spaces.draft.object, spaces.draft.record, relations.field]
      exact frameworks.writeReference _ _ _ relations.value spaces.surroundings.world
    · rintro ⟨record, world⟩ ⟨_, reached⟩ ⟨rfl, worlds⟩
      exact ⟨{ spaces.draft with record := rfl }, spaces.surroundings.registry, worlds⟩
  have checks : other.draft.checkChildren (second.knownKey other.world) noted.relation noted.value =
      space.draft.checkChildren (first.knownKey space.world) pending.relation pending.value := by
    have known : second.knownKey other.world = first.knownKey space.world :=
      frameworks.knownKey spaces.surroundings.world
    have key : other.draft.key = space.draft.key := congrArg Record.key spaces.draft.record
    rw [← checkChildren_plain, ← checkChildren_plain space.draft, plainly relations.value,
      relations.relation, known, checkChildren, presentKeys_eq_of_key key]
    rfl
  rw [tolerant_writeReference, tolerant_writeReference, relations.relation, ← relations.relation,
    checks, relations.relation]
  by_cases owned : pending.relation.owned = true
  · simp only [owned, ↓reduceIte]
    exact agree_outcome_bind spaces fun _ => written
  · simp only [owned]
    exact written

theorem notify_agrees (frameworks : first.Alike same alike second) {pending noted : Pending}
    (relations : pending.Alike same noted) (spaces : space.Alike same alike other) :
    Agree (Workspace.Alike same alike) ((notify first pending).tolerant space)
      ((notify second noted).tolerant other) := by
  unfold notify
  rw [tolerant_get_bind, tolerant_get_bind]
  simp only [spaces.draft.operation, spaces.draft.object, relations.field]
  have told {hear : Attempt World Unit} {listen : Attempt Other Unit}
      (agree : Agree alike (hear.tolerant space.world) (listen.tolerant other.world)) :
      Agree (Workspace.Alike same alike) ((Workspace.onWorld hear).tolerant space)
        ((Workspace.onWorld listen).tolerant other) := by
    rw [Workspace.onWorld, Workspace.onWorld, tolerant_onPart, tolerant_onPart]
    apply agree_onPart agree
    exact fun _ _ reached => ⟨spaces.draft, spaces.surroundings.registry, reached⟩
  cases space.draft.operation with
  | insert => exact told (frameworks.inserted _ _ spaces.surroundings.world)
  | update => exact told (frameworks.updated _ _ spaces.surroundings.world)

end Draft

namespace Mapper

variable {mapper : Mapper} {space : Workspace World} {other : Workspace Other}

/-! ## Registration -/

/-- Registration depends on the class and the key, and on the values that are provided for relation
fields. -/
theorem registerFields_congr (schema : twin.schema = draft.schema) (key : twin.key = draft.key)
    {provide others : Nat → Outcome FieldValue}
    (reads : ∀ position ∈ draft.schema.positionsOf .relation, others position = provide position) :
    mapper.registerFields twin others = mapper.registerFields draft provide := by
  unfold registerFields
  rw [schema]
  apply each_congr
  intro position listed
  unfold registerField
  rw [schema, key, reads position listed]

/-! ## The whole call -/

/-- **Frameworks that answer alike have relations resolved alike.** -/
theorem resolvePending_agrees (frameworks : first.Alike same alike second)
    (plainly : ∀ {value twin}, same value twin → twin.plain = value.plain)
    (reads : ∀ position ∈ space.draft.schema.positionsOf .relation,
      second.fieldValue other.world space.draft.object position =
        first.fieldValue space.world space.draft.object position)
    {noted others : List Pending} (relations : List.Forall₂ (Pending.Alike same) noted others)
    (spaces : space.Alike same alike other) :
    Agree (Workspace.Alike same alike) (mapper.resolvePending first noted space)
      (mapper.resolvePending second others other) := by
  have key : other.draft.key = space.draft.key := congrArg Record.key spaces.draft.record
  have chosen {choose : Pending → Bool}
      (blind : ∀ pending noted, Pending.Alike same pending noted → choose noted = choose pending) :
      List.Forall₂ (Pending.Alike same) (noted.filter choose) (others.filter choose) :=
    List.rel_filter (fun pending noted here => by simp only [blind pending noted here]) relations
  unfold resolvePending
  apply agree_get_bind
  rw [registerFields_congr spaces.draft.schema key (by rw [spaces.draft.object]; exact reads)]
  apply agree_bind
  · apply agree_onPart
    · rw [spaces.surroundings.registry]
      exact .refl (fun _ => rfl) _
    · rintro registry _ rfl
      exact ⟨spaces.draft, rfl, spaces.surroundings.world⟩
  intro _ _ _ spaces
  apply agree_bind
  · apply agree_each (chosen fun _ _ here => by simp only [Draft.writesReference, here.relation])
      _ spaces
    exact fun _ _ here _ _ => Draft.writeReference_agrees frameworks plainly here
  intro _ _ _ spaces
  apply agree_bind
  · apply agree_each (chosen fun _ _ here => by rw [here.relation]) _ spaces
    exact fun _ _ here _ _ => Draft.notify_agrees frameworks here
  intro _ _ _ spaces
  exact Draft.writeAllChildKeys_agrees frameworks plainly
    (chosen fun _ _ here => by rw [here.relation]) spaces

/-- **Drafts that differ in wrappers at most have their relations resolved alike.** -/
theorem resolve_agrees (frameworks : first.Alike same alike second)
    (plainly : ∀ {value twin}, same value twin → twin.plain = value.plain)
    (reads : ∀ position ∈ space.draft.schema.positionsOf .relation,
      second.fieldValue other.world space.draft.object position =
        first.fieldValue space.world space.draft.object position)
    (spaces : space.Alike same alike other) :
    Agree (Workspace.Alike same alike) (mapper.resolve first space)
      (mapper.resolve second other) := by
  have sameKey : other.draft.key = space.draft.key := congrArg Record.key spaces.draft.record
  have relations := spaces.draft.pending
  cases pending : space.draft.pending with
  | nil =>
      rw [pending, List.forall₂_nil_left_iff] at relations
      rw [resolve_of_nil first pending, resolve_of_nil second relations]
      exact .ok spaces
  | cons noted rest =>
      have waits : space.draft.pending ≠ [] := by rw [pending]; exact List.cons_ne_nil _ _
      have waitsToo : other.draft.pending ≠ [] := by
        intro empty
        rw [empty, List.forall₂_nil_right_iff] at relations
        exact waits relations
      by_cases complete : space.draft.key.isComplete = true
      · rw [resolve_of_complete waits complete,
          resolve_of_complete waitsToo (by rw [sameKey]; exact complete)]
        have emptied : Workspace.Alike same alike
            { space with draft := { space.draft with pending := [] } }
            { other with draft := { other.draft with pending := [] } } :=
          ⟨spaces.draft.emptied, spaces.surroundings⟩
        refine resolvePending_agrees frameworks plainly ?_ relations emptied
        exact reads
      · rw [Bool.not_eq_true] at complete
        rw [resolve_of_incomplete waits complete,
          resolve_of_incomplete waitsToo (by rw [sameKey]; exact complete), sameKey,
          spaces.draft.object]
        exact .error spaces

end Mapper

end

end RecordMapping
