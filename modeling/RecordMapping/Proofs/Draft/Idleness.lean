import RecordMapping.Proofs.Draft.Discipline
import RecordMapping.Proofs.Draft.Sightings

/-!
# Passes that change nothing

A pass over the relations of a record changes nothing when its registration goes through, no check
finds a child in another place, and every property holds what its relation stores already
(`Mapper.Finds`). How the world moves on meanwhile does not matter, as long as it stays among the
worlds of which that is known, and the framework's own references leave the record alone
(`Draft.Undisturbed`; for records that are known already, `Framework.Calm`).
-/

namespace RecordMapping

open Attempt

/-- Whether references and callbacks keep to some worlds and leave the record alone there. They may
fail provisionally. -/
structure Framework.Calm {World : Type} (framework : Framework World) (among : World → Prop) :
    Prop where
  writeReference : ∀ owner field value record world, among world →
    ∃ next, (framework.writeReference owner field value).tolerant (record, world) =
      .ok () (record, next) ∧ among next
  updated : ∀ owner field world, among world →
    ∃ next, (framework.updated owner field).tolerant world = .ok () next ∧ among next

/-- What tells a mapping of the insertion or the change. -/
def Framework.callback {World : Type} (framework : Framework World) :
    Operation → Reference → Field → Attempt World Unit
  | .insert => framework.inserted
  | .update => framework.updated

/-- Whether the reference and the callback of one relation, where they are due, keep to some worlds
and leave the record of a draft alone there. They may fail provisionally. -/
structure Draft.Undisturbed {World : Type} (draft : Draft) (framework : Framework World)
    (among : World → Prop) (pending : Pending) : Prop where
  refers : Draft.writesReference pending = true → ∀ world, among world →
    ∃ next, (framework.writeReference draft.object pending.field pending.value).tolerant
        (draft.record, world) = .ok () (draft.record, next) ∧ among next
  hears : pending.relation.hearsChanges = true → ∀ world, among world →
    ∃ next, (framework.callback draft.operation draft.object pending.field).tolerant world =
        .ok () next ∧ among next

/-- A draft as it was, in one of some worlds. -/
structure Workspace.Rests {World : Type} (space : Workspace World) (draft : Draft)
    (among : World → Prop) : Prop where
  draft : space.draft = draft
  world : among space.world

variable {World : Type} {framework : Framework World} {among : World → Prop} {mapper : Mapper}
  {draft twin : Draft} {pending : Pending} {space : Workspace World}

/-! ## Registration -/

namespace Mapper

theorem registerRelated_indifferent (key : Key) (relation : Relation) (related : List Reference)
    (registry other : ParentRegistry) :
    Agree (fun _ _ => True) (mapper.registerRelated key relation related registry)
      (mapper.registerRelated key relation related other) := by
  unfold registerRelated
  split
  · exact .ok trivial
  split
  · exact agree_pure () trivial
  · apply agree_each ((List.forall₂_eq_eq_eq ▸ rfl : List.Forall₂ Eq related related))
    · rintro child _ rfl _ _ -
      exact agree_outcome_bind trivial fun _ => .ok trivial
    · trivial

/-- Whether objects can be registered does not depend on what is registered already. -/
theorem registerFields_indifferent (mapper : Mapper) (draft : Draft) (provide : Nat → Outcome FieldValue)
    (registry other : ParentRegistry) :
    Agree (fun _ _ => True) (mapper.registerFields draft provide registry)
      (mapper.registerFields draft provide other) := by
  unfold registerFields
  apply agree_each ((List.forall₂_eq_eq_eq ▸ rfl : List.Forall₂ Eq _ _))
  · rintro position _ rfl registry other -
    unfold registerField
    apply agree_outcome_bind trivial
    intro field
    cases field.relation with
    | none => exact agree_pure () trivial
    | some relation =>
        exact agree_outcome_bind trivial fun value => registerRelated_indifferent _ _ _ _ _
  · trivial

theorem registerFields_of_registered {provide : Nat → Outcome FieldValue}
    {earlier left : ParentRegistry}
    (registered : mapper.registerFields draft provide earlier = .ok () left)
    (registry : ParentRegistry) :
    ∃ next, mapper.registerFields draft provide registry = .ok () next := by
  have agree := registerFields_indifferent mapper draft provide earlier registry
  rw [registered] at agree
  cases made : mapper.registerFields draft provide registry with
  | ok _ next => exact ⟨next, rfl⟩
  | error _ _ =>
      rw [made] at agree
      cases agree

end Mapper

/-! ## Checks of children -/

namespace Draft

theorem presentKeys_passes_iff {knownKey : Reference → Option Key} {relation : Relation}
    {children : List Reference} :
    (∃ keys, draft.presentKeys knownKey relation children = .ok keys) ↔
      ∀ child ∈ children, ∀ key, knownKey child = some key →
        draft.checkChild relation key = .ok () := by
  induction children with
  | nil => exact ⟨fun _ => List.forall_mem_nil _, fun _ => ⟨[], rfl⟩⟩
  | cons child rest ih =>
      rw [List.forall_mem_cons, ← ih]
      constructor
      · rintro ⟨keys, found⟩
        simp only [presentKeys, presentKey, bind_eq_ok_iff] at found
        obtain ⟨known, here, others, later, -⟩ := found
        refine ⟨fun key held => ?_, others, later⟩
        simp only [held, bind_eq_ok_iff] at here
        obtain ⟨_, passed, -⟩ := here
        exact passed
      · rintro ⟨here, others, later⟩
        rw [presentKeys, presentKey, later]
        cases held : knownKey child with
        | none => exact ⟨_, rfl⟩
        | some key =>
            simp only [here key held]
            exact ⟨_, rfl⟩

theorem checkChildren_eq_of_key (key : twin.key = draft.key) :
    twin.checkChildren = draft.checkChildren := by
  funext knownKey relation value
  rw [checkChildren, checkChildren, presentKeys_eq_of_key key]

/-- A check of children goes through exactly if each child that has a key has it in its place. -/
theorem checkChildren_ok_iff {knownKey : Reference → Option Key} {relation : Relation}
    {value : FieldValue} :
    draft.checkChildren knownKey relation value = .ok () ↔
      ∀ child ∈ value.referents, ∀ key, knownKey child = some key →
        draft.checkChild relation key = .ok () := by
  rw [← presentKeys_passes_iff]
  simp only [checkChildren, bind_eq_ok_iff]
  constructor
  · intro checked
    obtain ⟨keys, found, -⟩ := checked
    exact ⟨keys, found⟩
  · intro passes
    obtain ⟨keys, found⟩ := passes
    exact ⟨keys, found, rfl⟩

/-! ## The steps of a pass -/

theorem undisturbed_of_calm (calm : framework.Calm among) (updates : draft.operation = .update)
    (pending : Pending) : draft.Undisturbed framework among pending := by
  refine ⟨fun _ world there => calm.writeReference _ _ _ _ world there, fun _ world there => ?_⟩
  rw [updates]
  exact calm.updated _ _ world there

theorem writeReference_rests (undisturbed : draft.Undisturbed framework among pending)
    (rests : space.Rests draft among) (writes : writesReference pending = true)
    (passes : pending.relation.owned = true → ∀ world, among world →
      draft.checkChildren (framework.knownKey world) pending.relation pending.value = .ok ()) :
    ∃ next, (writeReference framework pending).tolerant space = .ok () next ∧
      next.Rests draft among := by
  obtain ⟨rfl, here⟩ := rests
  obtain ⟨world, written, there⟩ := undisturbed.refers writes _ here
  have stored : Workspace.onRecord (framework.writeReference space.draft.object pending.field
      pending.value).tolerant space = .ok () (space.withWorld world) := by
    rw [Workspace.onRecord, onPart, written]
  refine ⟨space.withWorld world, ?_, rfl, there⟩
  rw [tolerant_writeReference]
  by_cases owned : pending.relation.owned = true
  · simp only [owned, ↓reduceIte]
    rw [passes owned _ here]
    exact stored
  · simp only [owned]
    exact stored

theorem writeReferences_rest (noted : List Pending)
    (undisturbed : ∀ pending ∈ noted, draft.Undisturbed framework among pending)
    (passes : ∀ pending ∈ noted, writesReference pending = true →
      pending.relation.owned = true → ∀ world, among world →
        draft.checkChildren (framework.knownKey world) pending.relation pending.value = .ok ())
    (rests : space.Rests draft among) :
    ∃ next, each (noted.filter writesReference) (fun relation =>
      (writeReference framework relation).tolerant) space = .ok () next ∧ next.Rests draft among := by
  refine each_of_ok (fun pending chosen _ rests => ?_) rests
  obtain ⟨member, writes⟩ := List.mem_filter.mp chosen
  exact writeReference_rests (undisturbed pending member) rests writes (passes pending member writes)

theorem notify_eq (framework : Framework World) (pending : Pending) (space : Workspace World) :
    notify framework pending space = Workspace.onWorld
      (framework.callback space.draft.operation space.draft.object pending.field) space := by
  unfold notify
  rw [get_bind]
  cases space.draft.operation with
  | insert => rfl
  | update => rfl

theorem notify_rests (undisturbed : draft.Undisturbed framework among pending)
    (rests : space.Rests draft among) (asks : pending.relation.hearsChanges = true) :
    ∃ next, (notify framework pending).tolerant space = .ok () next ∧ next.Rests draft among := by
  obtain ⟨rfl, here⟩ := rests
  obtain ⟨world, heard, there⟩ := undisturbed.hears asks _ here
  refine ⟨space.withWorld world, ?_, rfl, there⟩
  have told : (notify framework pending).tolerant space = (Workspace.onWorld
      (framework.callback space.draft.operation space.draft.object pending.field)).tolerant space := by
    rw [tolerant, tolerant, notify_eq]
  rw [told, Workspace.onWorld, tolerant_onPart]
  exact onPart_of_ok heard

theorem notifyAll_rests (noted : List Pending)
    (undisturbed : ∀ pending ∈ noted, draft.Undisturbed framework among pending)
    (rests : space.Rests draft among) :
    ∃ next, each (noted.filter fun noted => noted.relation.hearsChanges) (fun relation =>
      (notify framework relation).tolerant) space = .ok () next ∧ next.Rests draft among := by
  refine each_of_ok (fun pending chosen _ rests => ?_) rests
  obtain ⟨member, asks⟩ := List.mem_filter.mp chosen
  exact notify_rests (undisturbed pending member) rests asks

end Draft

/-! ## The whole pass -/

/-- Whether a draft holds what its relations store, as seen in some worlds. -/
structure Mapper.Holds (mapper : Mapper) (framework : Framework World) (draft : Draft)
    (among : World → Prop) : Prop where
  complete : draft.pending ≠ [] → draft.key.isComplete = true
  registers : draft.pending ≠ [] → ∀ world, among world → ∃ registry left,
    mapper.registerFields draft (framework.fieldValue world draft.object) registry = .ok () left
  passes : ∀ pending ∈ draft.pending, Draft.writesReference pending = true →
    pending.relation.owned = true → ∀ world, among world →
      draft.checkChildren (framework.knownKey world) pending.relation pending.value = .ok ()
  stored : ∀ pending ∈ mapper.unskipped draft, ∃ value,
    draft.record.get? pending.property = some value ∧ ∀ around : Surroundings World,
      among around.world → Draft.childKeys framework draft pending around = .ok value around

/-- Whether what a pass over the relations of a draft checks is in its place, and what it stores is
held already, in some worlds. -/
structure Mapper.Finds (mapper : Mapper) (framework : Framework World) (draft : Draft)
    (among : World → Prop) : Prop where
  passes : ∀ pending ∈ draft.pending, Draft.writesReference pending = true →
    pending.relation.owned = true → ∀ world, among world →
      draft.checkChildren (framework.knownKey world) pending.relation pending.value = .ok ()
  stored : ∀ pending ∈ mapper.unskipped draft, ∃ value,
    draft.record.get? pending.property = some value ∧ ∀ around : Surroundings World,
      among around.world → Draft.childKeys framework draft pending around = .ok value around

namespace Mapper

theorem resolvePending_rests (finds : mapper.Finds framework draft among)
    (undisturbed : ∀ pending ∈ draft.pending, draft.Undisturbed framework among pending)
    {around : Surroundings World} (here : among around.world) {registry : ParentRegistry}
    (registering : mapper.registerFields draft (framework.fieldValue around.world draft.object)
      around.registry = .ok () registry) :
    ∃ left, mapper.resolvePending framework draft.pending
        ⟨{ draft with pending := [] }, around⟩ = .ok false left ∧
      left.Rests { draft with pending := [] } among := by
  generalize emptied : { draft with pending := [] } = bare
  have key : bare.key = draft.key := by rw [← emptied]; rfl
  have schema : bare.schema = draft.schema := by rw [← emptied]
  have object : bare.object = draft.object := by rw [← emptied]
  have record : bare.record = draft.record := by rw [← emptied]
  have left : ∀ pending ∈ draft.pending, bare.Undisturbed framework among pending := by
    intro pending member
    rw [← emptied]
    exact ⟨(undisturbed pending member).refers, (undisturbed pending member).hears⟩
  rw [← object, ← registerFields_congr schema key fun _ _ => rfl] at registering
  have registeredAll : Workspace.onRegistry (mapper.registerFields bare
      (framework.fieldValue around.world bare.object)) ⟨bare, around⟩ =
        .ok () ⟨bare, registry, around.world⟩ := onPart_of_ok registering
  have rests : Workspace.Rests ⟨bare, registry, around.world⟩ bare among := ⟨rfl, here⟩
  have passes : ∀ pending ∈ draft.pending, Draft.writesReference pending = true →
      pending.relation.owned = true → ∀ world, among world →
        bare.checkChildren (framework.knownKey world) pending.relation pending.value = .ok () := by
    rw [Draft.checkChildren_eq_of_key key]
    exact finds.passes
  obtain ⟨referenced, referencing, rests⟩ :=
    Draft.writeReferences_rest draft.pending left passes rests
  obtain ⟨notified, notifying, rests⟩ := Draft.notifyAll_rests draft.pending left rests
  have idle : Draft.writeAllChildKeys framework (mapper.unskipped draft) notified =
      .ok false notified := by
    apply Draft.writeAllChildKeys_idle
    intro pending member
    obtain ⟨value, held, collects⟩ := finds.stored pending member
    refine ⟨value, ?_, ?_⟩
    · rw [rests.draft, Draft.childKeys_congr key schema object]
      exact collects _ rests.world
    · rw [rests.draft, record]
      exact held
  refine ⟨notified, ?_, rests⟩
  unfold resolvePending
  rw [get_bind]
  exact (bind_of_ok registeredAll).trans
    ((bind_of_ok referencing).trans ((bind_of_ok notifying).trans idle))

/-- **A pass that finds everything stored changes nothing**, and leads to one of the same worlds. -/
theorem resolve_rests (calm : framework.Calm among) (updates : draft.operation = .update)
    (holds : mapper.Holds framework draft among) (around : Surroundings World)
    (here : among around.world) :
    ∃ left, mapper.resolve framework ⟨draft, around⟩ = .ok false left ∧
      left.Rests { draft with pending := [] } among := by
  by_cases waits : draft.pending = []
  · refine ⟨_, resolve_of_nil framework waits, ?_, here⟩
    rw [← waits]
  · obtain ⟨_, _, registered⟩ := holds.registers waits around.world here
    obtain ⟨registry, registering⟩ := registerFields_of_registered registered around.registry
    rw [resolve_of_complete waits (holds.complete waits)]
    exact resolvePending_rests ⟨holds.passes, holds.stored⟩
      (fun pending _ => Draft.undisturbed_of_calm calm updates pending) here registering

end Mapper

end RecordMapping
