import RecordMapping.Draft.Resolution
import RecordMapping.Proofs.Draft.Population
import RecordMapping.Proofs.Framework

/-!
# Resolving relations leaves the key alone

While relations are resolved the surroundings go from one moment to a later one, and the draft goes
on with the same object, key and parent, whether the call succeeds or not. Only references are
written by the framework itself, which must keep the key.
-/

namespace RecordMapping

open Attempt

/-- A draft that goes on with the same object and the same key. -/
structure Draft.Continues (before after : Draft) : Prop where
  object : after.object = before.object
  schema : after.schema = before.schema
  operation : after.operation = before.operation
  key : after.key = before.key
  origin : after.parentOrigin = before.parentOrigin

namespace Draft.Continues

variable {before middle after : Draft}

theorem refl : Continues before before :=
  ⟨rfl, rfl, rfl, rfl, rfl⟩

theorem trans (first : Continues before middle) (second : Continues middle after) :
    Continues before after :=
  ⟨second.object.trans first.object, second.schema.trans first.schema,
    second.operation.trans first.operation, second.key.trans first.key,
    second.origin.trans first.origin⟩

theorem turn {loses : Prop} (continues : Continues before after) : Turn loses before after :=
  ⟨continues.object, continues.schema, continues.operation, .kept continues.key continues.origin⟩

end Draft.Continues

/-- The law of all that resolving relations does. -/
def Framework.resolving {World : Type} (framework : Framework World) : Law (Workspace World) where
  allows before after := framework.Reaches before.surroundings after.surroundings ∧
    before.draft.Continues after.draft
  reports _ error := error.isRebuild → framework.MayReport error
  refl _ := ⟨.refl, .refl⟩
  trans first second := ⟨first.1.trans second.1, first.2.trans second.2⟩
  carry _ reports := reports

/-- Outcomes that never tell of a second parent do as the laws of frameworks ask. -/
theorem Reports.unreported {α World : Type} {outcome : Outcome α} {framework : Framework World}
    (reports : Reports (·.isRebuild = false) outcome) :
    Reports (fun error => error.isRebuild → framework.MayReport error) outcome := by
  intro error failed rebuild
  rw [reports error failed] at rebuild
  contradiction

/-! ## The surroundings -/

/-- Outcomes that never tell of a second parent keep silent towards laws that mind nothing else. -/
theorem Reports.silent {α σ : Type} {outcome : Outcome α} {law : Law σ} {state : σ}
    (reports : Reports (·.isRebuild = false) outcome)
    (silent : ∀ state error, error.isRebuild = false → law.reports state error) :
    Reports (law.reports state) outcome :=
  fun error failed => silent state error (reports error failed)

/-- A framework that keeps a law in all that it is asked while the keys of related objects are
collected. No error but one that tells of a second parent is minded. -/
structure Framework.Obeys {World : Type} (framework : Framework World)
    (law : Law (Surroundings World)) : Prop where
  silent : ∀ around error, error.isRebuild = false → law.reports around error
  persist : ∀ object around, (framework.persist object).Keeps law around
  flush : ∀ object around, (framework.flush object).Keeps law around
  setField : ∀ object position value around,
    (Surroundings.onWorld (framework.setField object position value)).Keeps law around

theorem Framework.obeys_conduct {World : Type} (framework : Framework World) :
    framework.Obeys framework.conduct where
  silent _ error ordinary rebuild := by
    rw [ordinary] at rebuild
    contradiction
  persist object around :=
    keeps_outcome (.single (.persisted around object)) fun _ failed _ => .persist _ _ failed
  flush object around :=
    keeps_outcome (.single (.flushed around object)) fun _ failed _ => .flush _ _ failed
  setField object position value around := by
    unfold Surroundings.onWorld
    apply keeps_outcome
    · rw [outcome_onPart]
      exact .single (.fieldSet around object position value)
    · rw [outcome_onPart]
      exact fun _ failed _ => .setField _ _ _ _ failed

namespace Draft

variable {World : Type} {framework : Framework World} {draft : Draft} {pending : Pending}
  {around : Surroundings World} {law : Law (Surroundings World)}

theorem managedObject_keeps (obeys : framework.Obeys law) {child : Reference} :
    (managedObject framework child).Keeps law around := by
  unfold managedObject
  apply keeps_get_bind
  simp only
  split
  · exact keeps_pure child
  · exact obeys.persist child around

theorem flushedKey_keeps (obeys : framework.Obeys law) {object : Reference} :
    (flushedKey framework object).Keeps law around := by
  unfold flushedKey
  apply keeps_get_bind
  split
  · exact keeps_pure _
  · apply keeps_bind (obeys.flush object around)
    intro _ flushed _
    apply keeps_get_bind
    split
    · exact keeps_pure _
    · exact keeps_throw (obeys.silent _ _ rfl)

theorem relatedKey_keeps (obeys : framework.Obeys law) {relation : Relation} {child : Reference} :
    (relatedKey framework draft relation child).Keeps law around := by
  unfold relatedKey
  apply keeps_get_bind
  split
  · exact keeps_outcome_bind (checkChild_reports.silent obeys.silent) fun _ _ => keeps_pure _
  · apply keeps_bind (managedObject_keeps obeys)
    intro object _ _
    apply keeps_bind (flushedKey_keeps obeys)
    intro key _ _
    exact keeps_outcome_bind (checkChild_reports.silent obeys.silent) fun _ _ => keeps_pure _

theorem relatedKeys_keeps (obeys : framework.Obeys law) {relation : Relation}
    {children : List Reference} :
    (relatedKeys framework draft relation children).Keeps law around := by
  induction children generalizing around with
  | nil => exact keeps_pure []
  | cons child rest ih =>
      unfold relatedKeys
      apply keeps_get_bind
      split
      · exact ih
      · apply keeps_bind (relatedKey_keeps obeys)
        intro _ _ _
        apply keeps_bind ih
        intro _ _ _
        exact keeps_pure _

theorem relatedValue_keeps (obeys : framework.Obeys law) {child : Reference} :
    (relatedValue framework draft pending child).Keeps law around := by
  unfold relatedValue
  apply keeps_get_bind
  split
  · exact keeps_pure _
  · apply keeps_bind (relatedKey_keeps obeys)
    rintro ⟨object, key⟩ after _
    simp only
    split
    · split
      · apply keeps_bind (obeys.setField _ _ _ after)
        intro _ _ _
        exact keeps_pure _
      · exact keeps_pure _
    · exact keeps_pure _

/-- **The keys of related objects are collected within the law** that the framework keeps when it is
asked to store them. -/
theorem childKeys_keeps (obeys : framework.Obeys law) :
    (childKeys framework draft pending).Keeps law around := by
  unfold childKeys
  simp only
  split
  · exact keeps_outcome_bind (Field.refuseNull_reports.silent obeys.silent) fun _ _ => keeps_pure _
  · split
    · exact relatedValue_keeps obeys
    · exact keeps_throw (obeys.silent _ _ rfl)
  · split
    · exact keeps_throw (obeys.silent _ _ rfl)
    · apply keeps_bind (relatedKeys_keeps obeys)
      intro _ _ _
      exact keeps_pure _
  · exact keeps_throw (obeys.silent _ _ rfl)

end Draft

/-! ## The registry -/

/-- The law of what is noted in the registry: notes lead from one moment to a later one, in
whatever world. -/
def Framework.noting {World : Type} (framework : Framework World) : Law ParentRegistry where
  allows before after := ∀ world, framework.Reaches ⟨before, world⟩ ⟨after, world⟩
  reports _ error := error.isRebuild → framework.MayReport error
  refl _ _ := .refl
  trans first second world := (first world).trans (second world)
  carry _ reports := reports

namespace Mapper

variable {World : Type} {framework : Framework World} {mapper : Mapper} {draft : Draft}
  {registry : ParentRegistry}

theorem reaches_markRoots {related : List Reference} (world : World) :
    framework.Reaches ⟨registry, world⟩
      ⟨related.foldl (fun registry object => registry.markRoot object.id) registry, world⟩ := by
  induction related generalizing registry with
  | nil => exact .refl
  | cons object rest ih =>
      exact (Framework.Step.marked ⟨registry, world⟩ object.id).reaches.trans ih

theorem checkTarget_reports {relation : Relation} {child : Reference} :
    Reports (·.isRebuild = false) (mapper.checkTarget relation child) := by
  unfold checkTarget
  split
  · exact reports_ok _
  · apply reports_bind
    · unfold schema
      split
      · exact reports_ok _
      · exact reports_error rfl
    · intro _ _
      split
      · exact reports_error rfl
      · exact reports_ok _

theorem registerRelated_keeps {key : Key} {relation : Relation} {related : List Reference} :
    (mapper.registerRelated key relation related).Keeps framework.noting registry := by
  unfold registerRelated
  split
  · exact keeps_modify reaches_markRoots
  split
  · exact keeps_pure ()
  · apply keeps_each
    intro child _ registry
    apply keeps_outcome_bind checkTarget_reports.unreported
    intro _ _
    exact keeps_modify fun world => (Framework.Step.announced ⟨registry, world⟩ child.id key).reaches

theorem registerFields_keeps {provide : Nat → Outcome FieldValue}
    (providing : ∀ position,
      Reports (fun error => error.isRebuild → framework.MayReport error) (provide position)) :
    (mapper.registerFields draft provide).Keeps framework.noting registry := by
  apply keeps_each
  intro position _ registry
  unfold registerField
  apply keeps_outcome_bind ClassSchema.field_reports.unreported
  intro field _
  split
  · exact keeps_pure ()
  · apply keeps_outcome_bind (providing position)
    intro value _
    exact registerRelated_keeps

end Mapper

/-! ## The steps of a call -/

namespace Draft

variable {World : Type} {framework : Framework World} {law : Law (Workspace World)}
  {pending : Pending} {noted : List Pending} {space : Workspace World}

theorem checkChildren_reports {draft : Draft} {knownKey : Reference → Option Key}
    {relation : Relation} {value : FieldValue} :
    Reports (·.isRebuild = false) (draft.checkChildren knownKey relation value) :=
  reports_bind presentKeys_reports fun _ _ => reports_ok _

/-- Writing a reference keeps a law that does not mind a child to be refused, if what the framework
does keeps it. -/
theorem keeps_writeReference
    (silent : ∀ error, error.isRebuild = false → law.reports space error)
    (written : (Workspace.onRecord (framework.writeReference space.draft.object pending.field
      pending.value)).Keeps law space) :
    (writeReference framework pending).Keeps law space := by
  unfold writeReference
  apply keeps_get_bind
  split
  · apply keeps_outcome_bind
    · exact fun error failed => silent error (checkChildren_reports error failed)
    · exact fun _ _ => written
  · exact written

theorem keeps_notify
    (inserted : (Workspace.onWorld (framework.inserted space.draft.object pending.field)).Keeps
      law space)
    (updated : (Workspace.onWorld (framework.updated space.draft.object pending.field)).Keeps
      law space) :
    (notify framework pending).Keeps law space := by
  unfold notify
  apply keeps_get_bind
  simp only
  split
  · exact inserted
  · exact updated

/-- Writing the keys of a relation keeps a law if collecting them does, and the law allows the
property of the relation to be put. -/
theorem keeps_writeChildKeys
    (collected : (Workspace.onSurroundings (childKeys framework space.draft pending)).Keeps
      law space)
    (puts : ∀ (after : Workspace World) value, law.allows after { after with
      draft := after.draft.put pending.property pending.field.isIndexed value }) :
    (writeChildKeys framework pending).Keeps law space := by
  unfold writeChildKeys
  apply keeps_get_bind
  apply keeps_bind collected
  intro stored after _
  split
  · exact keeps_pure false
  · apply keeps_bind (keeps_modify (puts after stored))
    exact fun _ _ _ => keeps_pure true

theorem keeps_writeAllChildKeys
    (written : ∀ pending ∈ noted, ∀ space, (writeChildKeys framework pending).Keeps law space) :
    (writeAllChildKeys framework noted).Keeps law space := by
  induction noted generalizing space with
  | nil => exact keeps_pure false
  | cons pending rest ih =>
      obtain ⟨here, later⟩ := List.forall_mem_cons.mp written
      unfold writeAllChildKeys
      apply keeps_bind (here space)
      intro _ _ _
      apply keeps_bind (ih later)
      intro _ _ _
      exact keeps_pure _

end Draft

namespace Mapper

variable {World : Type} {framework : Framework World} {mapper : Mapper} {law : Law (Workspace World)}
  {space : Workspace World}

/-- **Resolving relations keeps a law that its steps keep**: registration, each reference, each
callback, and the keys of each relation that is not skipped. -/
theorem keeps_resolvePending {noted : List Pending}
    (registered : (Workspace.onRegistry (mapper.registerFields space.draft
      (framework.fieldValue space.world space.draft.object))).Keeps law space)
    (referenced : ∀ pending space, (Draft.writeReference framework pending).Keeps law space)
    (notified : ∀ pending space, (Draft.notify framework pending).Keeps law space)
    (written : ∀ pending ∈ noted, mapper.skips pending.relation = false →
      ∀ space, (Draft.writeChildKeys framework pending).Keeps law space) :
    (mapper.resolvePending framework noted).Keeps law space := by
  unfold resolvePending
  apply keeps_get_bind
  apply keeps_bind registered
  intro _ _ _
  apply keeps_bind (keeps_each fun pending _ space => keeps_tolerant (referenced pending space))
  intro _ _ _
  apply keeps_bind (keeps_each fun pending _ space => keeps_tolerant (notified pending space))
  intro _ _ _
  apply Draft.keeps_writeAllChildKeys
  intro pending member
  obtain ⟨waits, unskipped⟩ := List.mem_filter.mp member
  exact written pending waits (by simpa using unskipped)

theorem keeps_resolve
    (early : law.reports space
      (.internal (.relationsBeforeKey space.draft.object space.draft.key)))
    (emptied : law.allows space { space with draft := { space.draft with pending := [] } })
    (resolved : (mapper.resolvePending framework space.draft.pending).Keeps law
      { space with draft := { space.draft with pending := [] } }) :
    (mapper.resolve framework).Keeps law space := by
  unfold resolve
  apply keeps_get_bind
  simp only
  split
  · exact keeps_pure false
  split
  · exact keeps_throw early
  · apply keeps_bind (keeps_modify emptied)
    rintro _ _ ⟨⟩
    exact resolved

end Mapper

/-! ## The whole call -/

namespace Draft

variable {World : Type} {framework : Framework World} {pending : Pending}
  {space : Workspace World}

theorem writeReference_keeps (keepsKeys : framework.KeepsKeys) :
    (writeReference framework pending).Keeps framework.resolving space := by
  apply keeps_writeReference
  · intro error ordinary rebuild
    rw [ordinary] at rebuild
    contradiction
  · unfold Workspace.onRecord
    apply keeps_outcome
    · rw [outcome_onPart]
      exact ⟨.single (.referenceWritten space.surroundings space.draft.record _ _ _),
        rfl, rfl, rfl, keepsKeys _ _ _ _ _, rfl⟩
    · rw [outcome_onPart]
      exact fun _ failed _ => .writeReference _ _ _ _ _ failed

theorem notify_keeps : (notify framework pending).Keeps framework.resolving space := by
  apply keeps_notify
  · apply keeps_outcome
    · rw [Workspace.onWorld, outcome_onPart]
      exact ⟨.single (.inserted space.surroundings _ _), .refl⟩
    · rw [Workspace.onWorld, outcome_onPart]
      exact fun _ failed _ => .inserted _ _ _ failed
  · apply keeps_outcome
    · rw [Workspace.onWorld, outcome_onPart]
      exact ⟨.single (.updated space.surroundings _ _), .refl⟩
    · rw [Workspace.onWorld, outcome_onPart]
      exact fun _ failed _ => .updated _ _ _ failed

theorem writeChildKeys_keeps :
    (writeChildKeys framework pending).Keeps framework.resolving space := by
  apply keeps_writeChildKeys
  · unfold Workspace.onSurroundings
    apply keeps_onPart (childKeys_keeps framework.obeys_conduct)
    · exact fun _ reached => ⟨reached, .refl⟩
    · exact fun _ reports => reports
  · exact fun _ _ => ⟨.refl, rfl, rfl, rfl, rfl, rfl⟩

theorem writeAllChildKeys_keeps {noted : List Pending} :
    (writeAllChildKeys framework noted).Keeps framework.resolving space :=
  keeps_writeAllChildKeys fun _ _ _ => writeChildKeys_keeps

end Draft

namespace Mapper

variable {World : Type} {framework : Framework World} {mapper : Mapper} {space : Workspace World}

theorem registerAll_keeps :
    (Workspace.onRegistry (mapper.registerFields space.draft
      (framework.fieldValue space.world space.draft.object))).Keeps framework.resolving space := by
  unfold Workspace.onRegistry
  apply keeps_onPart (registerFields_keeps fun _ _ failed _ => .fieldValue _ _ _ failed)
  · exact fun _ reached => ⟨reached space.surroundings.world, .refl⟩
  · exact fun _ reports => reports

theorem writeReferences_keeps (keepsKeys : framework.KeepsKeys) {noted : List Pending} :
    (each noted fun relation => (Draft.writeReference framework relation).tolerant).Keeps
      framework.resolving space :=
  keeps_each fun _ _ _ => keeps_tolerant (Draft.writeReference_keeps keepsKeys)

theorem notifyAll_keeps {noted : List Pending} :
    (each noted fun relation => (Draft.notify framework relation).tolerant).Keeps
      framework.resolving space :=
  keeps_each fun _ _ _ => keeps_tolerant Draft.notify_keeps

theorem resolvePending_keeps (keepsKeys : framework.KeepsKeys) {noted : List Pending} :
    (mapper.resolvePending framework noted).Keeps framework.resolving space :=
  keeps_resolvePending registerAll_keeps (fun _ _ => Draft.writeReference_keeps keepsKeys)
    (fun _ _ => Draft.notify_keeps) fun _ _ _ _ => Draft.writeChildKeys_keeps

/-- **Resolving relations keeps the key**, whatever the framework does. -/
theorem resolve_keeps (keepsKeys : framework.KeepsKeys) :
    (mapper.resolve framework).Keeps framework.resolving space :=
  keeps_resolve (nomatch ·) ⟨.refl, rfl, rfl, rfl, rfl, rfl⟩ (resolvePending_keeps keepsKeys)

end Mapper

end RecordMapping
