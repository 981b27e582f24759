import RecordMapping.Proofs.Draft.Registration
import RecordMapping.Proofs.Framework.Course

/-!
# The order of requests

While relations are resolved the framework is asked in phases: the relation fields of the owner are
read first, then mappings write their references, then mappings hear of the insertion or the change,
and only then are related objects stored. `Framework.May` says which request may come after a log of
others; every step of the call makes a request that may come next, and the first one that fails for
good ends the call (`Mapper.resolve_discipline`).
-/

namespace RecordMapping

open Attempt

variable {World : Type}

/-- The request to write the reference of a relation. -/
def Pending.reference (owner : Reference) (pending : Pending) : Request :=
  .writeReference owner pending.field pending.value

/-- The request to hear of the insertion of the owner of a relation, or of the change. -/
def Pending.callback (owner : Reference) (operation : Operation) (pending : Pending) : Request :=
  match operation with
  | .insert => .inserted owner pending.field
  | .update => .updated owner pending.field

/-- One request for each relation that writes a reference of its own, in order. -/
def Draft.references (draft : Draft) : List Request :=
  (draft.pending.filter writesReference).map (Pending.reference draft.object)

/-- One request for each relation that hears of changes, in order. -/
def Draft.callbacks (draft : Draft) : List Request :=
  (draft.pending.filter fun noted => noted.relation.hearsChanges).map
    (Pending.callback draft.object draft.operation)

/-- The requests that come before anything is stored. -/
def Draft.plan (draft : Draft) : List Request :=
  draft.references ++ draft.callbacks

/-- Whether all that is planned was asked for, and nothing after it but to store objects. -/
def CarriedOut (plan : List Request) (log : List (Entry World)) : Prop :=
  ∃ called stored, log = called ++ stored ∧ called.map Entry.request = plan ∧
    ∀ entry ∈ stored, entry.request.stores = true

/-- What an object is stored for, or replaced. An object is stored on behalf of a related object
that is not deleted and has no key: it is made persistent unless it is managed and not detached, and
flushed if it is, or if it was given for one that was just made persistent and has no key either.
A field of the owner is set to the object that was given for the one in it. -/
inductive Framework.Warrants (framework : Framework World) (owner : Reference)
    (related : List Pending) (earlier : List (Entry World)) : Entry World → Prop where
  | persisted {pending : Pending} {child : Reference} {world : World}
      {answer : Outcome (Option Reference)} (member : pending ∈ related)
      (refers : child ∈ pending.value.referents)
      (there : framework.isDeleted world child = false)
      (keyless : framework.knownKey world child = none)
      (foreign : framework.isManaged world child = false ∨ framework.isDetached world child = true) :
      Warrants framework owner related earlier ⟨.persist child, world, answer⟩
  | flushed {pending : Pending} {child : Reference} {world : World}
      {answer : Outcome (Option Reference)} (member : pending ∈ related)
      (refers : child ∈ pending.value.referents)
      (there : framework.isDeleted world child = false)
      (keyless : framework.knownKey world child = none)
      (managed : framework.isManaged world child = true)
      (attached : framework.isDetached world child = false) :
      Warrants framework owner related earlier ⟨.flush child, world, answer⟩
  | handed {before : List (Entry World)} {child object : Reference} {start world : World}
      {answer : Outcome (Option Reference)}
      (given : earlier = before ++ [⟨.persist child, start, .ok (some object)⟩])
      (keyless : framework.knownKey world object = none) :
      Warrants framework owner related earlier ⟨.flush object, world, answer⟩
  | replaced {pending : Pending} {child object : Reference} {position : Nat} {start world : World}
      {answer : Outcome (Option Reference)} (member : pending ∈ related)
      (refers : pending.value.bare = .object child) (located : pending.position = some position)
      (given : ⟨.persist child, start, .ok (some object)⟩ ∈ earlier) (other : object ≠ child) :
      Warrants framework owner related earlier
        ⟨.setField owner position (.object object), world, answer⟩

/-- Which request may come next: the next one of a plan, or, once that is carried out, a request to
store objects that there is a reason for. -/
def Framework.May (framework : Framework World) (owner : Reference) (plan : List Request)
    (related : List Pending) (log : List (Entry World)) (entry : Entry World) : Prop :=
  log.map Entry.request ++ [entry.request] <+: plan ∨
    entry.request.stores = true ∧ CarriedOut plan log ∧ framework.Warrants owner related log entry

/-- A course whose plan is carried out. -/
structure Framework.Storing (framework : Framework World) (owner : Reference) (plan : List Request)
    (related : List Pending) (log : List (Entry World)) : Prop where
  course : Course (framework.May owner plan related) log
  carriedOut : CarriedOut plan log

variable {framework : Framework World} {owner : Reference} {plan : List Request}
  {related : List Pending} {log : List (Entry World)} {entry : Entry World}

theorem CarriedOut.next (carriedOut : CarriedOut plan log) (stores : entry.request.stores = true) :
    CarriedOut plan (log ++ [entry]) := by
  obtain ⟨called, stored, rfl, planned, others⟩ := carriedOut
  refine ⟨called, stored ++ [entry], List.append_assoc _ _ _, planned, ?_⟩
  rw [List.forall_mem_append]
  exact ⟨others, List.forall_mem_singleton.mpr stores⟩

theorem Framework.Storing.next (storing : framework.Storing owner plan related log)
    (course : Course (framework.May owner plan related) (log ++ [entry]))
    (stores : entry.request.stores = true) : framework.Storing owner plan related (log ++ [entry]) :=
  ⟨course, storing.carriedOut.next stores⟩

/-! ## Storing related objects -/

namespace Draft

variable {draft : Draft} {pending : Pending} {child object : Reference}
  {around : Surroundings (Logged World)}

/-- An object without a key is flushed for the reason that there is. -/
theorem flushedKey_leads (storing : framework.Storing owner plan related around.log)
    (reason : ∀ answer, framework.knownKey around.world.world object = none →
      framework.Warrants owner related around.log
        ⟨.flush object, around.world.world, answer⟩) :
    (flushedKey framework.logging object).Leads (framework.May owner plan related)
      Surroundings.log around fun _ next =>
        framework.Storing owner plan related next.log ∧ around.log <+: next.log := by
  unfold flushedKey
  apply leads_get_bind
  split
  case h_1 => exact leads_pure ⟨storing, List.prefix_rfl⟩
  case h_2 keyless =>
    have flushed : (framework.logging.flush object).Leads (framework.May owner plan related)
        Surroundings.log around fun _ next =>
          framework.Storing owner plan related next.log ∧
            around.log <+: next.log := by
      apply Recorder.onSurroundings.note_leads rfl storing.course
      · exact fun answer => .inr ⟨rfl, storing.carriedOut, reason answer keyless⟩
      · rintro _ next entry rfl course
        exact ⟨storing.next course rfl, List.prefix_append _ _⟩
    apply leads_bind flushed
    intro _ next went
    apply leads_get_bind
    split
    · exact leads_pure went
    · exact leads_throw went.1.course

/-- A managed object for one without a key that is not deleted: there is a reason to flush it. -/
theorem managedObject_leads (member : pending ∈ related) (refers : child ∈ pending.value.referents)
    (there : framework.isDeleted around.world.world child = false)
    (keyless : framework.knownKey around.world.world child = none)
    (storing : framework.Storing owner plan related around.log) :
    (managedObject framework.logging child).Leads (framework.May owner plan related)
      Surroundings.log around fun object next =>
        framework.Storing owner plan related next.log ∧
          (object ≠ child →
            ∃ start, ⟨.persist child, start, .ok (some object)⟩ ∈ next.log) ∧
          ∀ answer, framework.knownKey next.world.world object = none →
            framework.Warrants owner related next.log
              ⟨.flush object, next.world.world, answer⟩ := by
  unfold managedObject
  apply leads_get_bind
  by_cases managed : (framework.isManaged around.world.world child &&
      !framework.isDetached around.world.world child) = true
  · simp only [Framework.logging, managed, ↓reduceIte]
    rw [Bool.and_eq_true, Bool.not_eq_true'] at managed
    refine leads_pure ⟨storing, fun other => (other rfl).elim, fun answer _ => ?_⟩
    exact .flushed member refers there keyless managed.1 managed.2
  · simp only [Framework.logging, managed]
    apply Recorder.onSurroundings.note_leads rfl storing.course
    · have foreign : framework.isManaged around.world.world child = false ∨
          framework.isDetached around.world.world child = true := by
        rw [Bool.and_eq_true, Bool.not_eq_true', not_and_or, Bool.not_eq_true,
          Bool.not_eq_false] at managed
        exact managed
      exact fun answer =>
        .inr ⟨rfl, storing.carriedOut, .persisted member refers there keyless foreign⟩
    · rintro object next entry rfl course
      refine ⟨storing.next course rfl, fun _ => ?_, fun answer without => .handed rfl without⟩
      exact ⟨around.world.world, List.mem_append_right _ (List.mem_singleton_self _)⟩

/-- The key of a related object that is not deleted. An object in its place was given for it. -/
theorem relatedKey_leads (member : pending ∈ related) (refers : child ∈ pending.value.referents)
    (there : framework.isDeleted around.world.world child = false)
    (storing : framework.Storing owner plan related around.log) :
    (relatedKey framework.logging draft pending.relation child).Leads
      (framework.May owner plan related) Surroundings.log around fun found next =>
        framework.Storing owner plan related next.log ∧
          (found.1 ≠ child →
            ∃ start, ⟨.persist child, start, .ok (some found.1)⟩ ∈ next.log) := by
  unfold relatedKey
  apply leads_get_bind
  split
  case h_1 =>
    apply leads_outcome_bind storing.course
    exact fun _ => leads_pure ⟨storing, fun other => (other rfl).elim⟩
  case h_2 keyless =>
    apply leads_bind (managedObject_leads member refers there keyless storing)
    intro object managed went
    obtain ⟨storing, given, reason⟩ := went
    apply leads_bind (flushedKey_leads storing reason)
    intro key keyed went
    obtain ⟨storing, longer⟩ := went
    apply leads_outcome_bind storing.course
    refine fun _ => leads_pure ⟨storing, fun other => ?_⟩
    obtain ⟨start, made⟩ := given other
    exact ⟨start, longer.mem made⟩

theorem relatedKeys_leads (member : pending ∈ related) {children : List Reference}
    (refer : ∀ child ∈ children, child ∈ pending.value.referents)
    (storing : framework.Storing owner plan related around.log) :
    (relatedKeys framework.logging draft pending.relation children).Leads
      (framework.May owner plan related) Surroundings.log around fun _ next =>
        framework.Storing owner plan related next.log := by
  induction children generalizing around with
  | nil => exact leads_pure storing
  | cons child rest ih =>
      obtain ⟨refers, others⟩ := List.forall_mem_cons.mp refer
      unfold relatedKeys
      apply leads_get_bind
      by_cases gone : framework.isDeleted around.world.world child = true
      · simp only [Framework.logging, gone, ↓reduceIte]
        exact ih others storing
      · simp only [Framework.logging, gone]
        rw [Bool.not_eq_true] at gone
        apply leads_bind (relatedKey_leads member refers gone storing)
        intro _ _ went
        obtain ⟨storing, -⟩ := went
        apply leads_bind (ih others storing)
        exact fun _ _ storing => leads_pure storing

theorem setField_leads {position : Nat} {value : FieldValue}
    (storing : framework.Storing owner plan related around.log)
    (reason : ∀ answer, framework.Warrants owner related around.log
      ⟨.setField owner position value, around.world.world, answer⟩) :
    (Surroundings.onWorld (framework.logging.setField owner position value)).Leads
      (framework.May owner plan related) Surroundings.log around fun _ next =>
        framework.Storing owner plan related next.log := by
  have set : (framework.logging.setField owner position value).Leads
      (framework.May owner plan related) Logged.log around.world fun _ next =>
        framework.Storing owner plan related next.log := by
    apply Recorder.onWorld.note_leads rfl storing.course
    · exact fun answer => .inr ⟨rfl, storing.carriedOut, reason answer⟩
    · rintro _ next entry rfl course
      exact storing.next course rfl
  exact leads_onPart set (fun _ => rfl) fun _ _ storing => storing

theorem relatedValue_leads (member : pending ∈ related) (refers : pending.value.bare = .object child)
    (own : draft.object = owner)
    (storing : framework.Storing owner plan related around.log) :
    (relatedValue framework.logging draft pending child).Leads
      (framework.May owner plan related) Surroundings.log around fun _ next =>
        framework.Storing owner plan related next.log := by
  have among : child ∈ pending.value.referents := by
    rw [FieldValue.referents_of_object refers]
    exact List.mem_singleton_self child
  unfold relatedValue
  apply leads_get_bind
  by_cases gone : framework.isDeleted around.world.world child = true
  · simp only [Framework.logging, gone, ↓reduceIte]
    exact leads_pure storing
  · simp only [Framework.logging, gone]
    rw [Bool.not_eq_true] at gone
    apply leads_bind (relatedKey_leads member among gone storing)
    intro found keyed went
    obtain ⟨object, key⟩ := found
    obtain ⟨storing, given⟩ := went
    simp only
    by_cases replaced : object ≠ child
    · rw [if_pos replaced]
      obtain ⟨start, made⟩ := given replaced
      cases located : pending.position with
      | none => exact leads_pure storing
      | some position =>
          simp only [own]
          apply leads_bind (setField_leads storing fun _ =>
            .replaced member refers located made replaced)
          exact fun _ _ storing => leads_pure storing
    · rw [if_neg replaced]
      exact leads_pure storing

theorem childKeys_leads (member : pending ∈ related) (own : draft.object = owner)
    (storing : framework.Storing owner plan related around.log) :
    (childKeys framework.logging draft pending).Leads
      (framework.May owner plan related) Surroundings.log around fun _ next =>
        framework.Storing owner plan related next.log := by
  unfold childKeys
  simp only
  split
  case h_1 => exact leads_outcome_bind storing.course fun _ => leads_pure storing
  case h_2 child refers =>
    split
    · exact relatedValue_leads member refers own storing
    · exact leads_throw storing.course
  case h_3 items found =>
    split
    · exact leads_throw storing.course
    · have refer : ∀ child ∈ items.filterMap FieldValue.object?, child ∈ pending.value.referents := by
        intro child among
        rw [FieldValue.referents_of_list found]
        exact among
      apply leads_bind (relatedKeys_leads member refer storing)
      exact fun _ _ storing => leads_pure storing
  case h_4 => exact leads_throw storing.course

variable {space : Workspace (Logged World)}

theorem writeChildKeys_leads (member : pending ∈ related) (own : space.draft.object = owner)
    (storing : framework.Storing owner plan related space.log) :
    (writeChildKeys framework.logging pending).Leads (framework.May owner plan related)
      Workspace.log space fun _ next =>
        next.draft.object = owner ∧ framework.Storing owner plan related next.log := by
  have collected : (Workspace.onSurroundings (childKeys framework.logging space.draft pending)).Leads
      (framework.May owner plan related) Workspace.log space fun _ next =>
        next.draft.object = owner ∧ framework.Storing owner plan related next.log :=
    leads_onPart (childKeys_leads member own storing) (fun _ => rfl) fun _ _ storing => ⟨own, storing⟩
  unfold writeChildKeys
  apply leads_get_bind
  apply leads_bind collected
  intro stored next went
  split
  · exact leads_pure went
  · exact leads_modify_bind (leads_pure went)

theorem writeAllChildKeys_leads {noted : List Pending} (members : ∀ pending ∈ noted, pending ∈ related)
    (own : space.draft.object = owner)
    (storing : framework.Storing owner plan related space.log) :
    (writeAllChildKeys framework.logging noted).Leads (framework.May owner plan related)
      Workspace.log space fun _ next => framework.Storing owner plan related next.log := by
  induction noted generalizing space with
  | nil => exact leads_pure storing
  | cons pending rest ih =>
      obtain ⟨member, others⟩ := List.forall_mem_cons.mp members
      unfold writeAllChildKeys
      apply leads_bind (writeChildKeys_leads member own storing)
      intro _ next went
      obtain ⟨own, storing⟩ := went
      apply leads_bind (ih others own storing)
      exact fun _ _ storing => leads_pure storing

end Draft

/-! ## References and callbacks -/

/-- A call that made some of its planned requests. -/
structure Workspace.Calling (framework : Framework World) (draft : Draft) (plan : List Request)
    (related : List Pending) (made : List Request) (space : Workspace (Logged World)) : Prop where
  object : space.draft.object = draft.object
  operation : space.draft.operation = draft.operation
  course : Course (framework.May draft.object plan related) space.log
  requests : space.log.map Entry.request = made

/-- The next planned request is made. -/
theorem Recorder.planned_leads {σ ρ : Type} (recorder : Recorder World σ ρ) {request : Request}
    {attempt : Attempt σ Unit} {state : ρ} {made : List Request} (hook : request.stores = false)
    (course : Course (framework.May owner plan related) (recorder.log state))
    (requests : (recorder.log state).map Entry.request = made)
    (planned : made ++ [request] <+: plan) :
    (recorder.note request (fun _ => none) attempt).tolerant.Leads
      (framework.May owner plan related) recorder.log state fun _ next =>
        Course (framework.May owner plan related) (recorder.log next) ∧
          (recorder.log next).map Entry.request = made ++ [request] := by
  apply recorder.note_tolerant_leads hook course
  · rintro entry rfl
    refine .inl ?_
    rw [requests]
    exact planned
  · rintro next entry rfl longer
    rw [recorder.log_join]
    exact ⟨longer, by rw [List.map_append, requests, List.map_singleton]⟩

namespace Draft

variable {draft : Draft} {pending : Pending} {space : Workspace (Logged World)}
  {made : List Request}

theorem writeReference_leads (calling : space.Calling framework draft plan related made)
    (planned : made ++ [pending.reference draft.object] <+: plan) :
    (writeReference framework.logging pending).tolerant.Leads
      (framework.May draft.object plan related) Workspace.log space fun _ next =>
        next.Calling framework draft plan related (made ++ [pending.reference draft.object]) := by
  have written : (Workspace.onRecord (framework.logging.writeReference space.draft.object
      pending.field pending.value).tolerant).Leads (framework.May draft.object plan related)
        Workspace.log space fun _ next =>
          next.Calling framework draft plan related (made ++ [pending.reference draft.object]) := by
    rw [calling.object]
    apply leads_onPart
    · exact Recorder.onRecord.planned_leads rfl calling.course calling.requests planned
    · exact fun _ => rfl
    · intro _ next went
      exact ⟨calling.object, calling.operation, went.1, went.2⟩
  unfold Leads
  rw [tolerant_writeReference]
  by_cases owned : pending.relation.owned = true
  · simp only [owned, ↓reduceIte]
    exact leads_outcome_bind calling.course fun _ => written
  · simp only [owned]
    exact written

theorem notify_leads (calling : space.Calling framework draft plan related made)
    (planned : made ++ [pending.callback draft.object draft.operation] <+: plan) :
    (notify framework.logging pending).tolerant.Leads (framework.May draft.object plan related)
      Workspace.log space fun _ next => next.Calling framework draft plan related
        (made ++ [pending.callback draft.object draft.operation]) := by
  have told {request : Request} {attempt : Attempt World Unit} (hook : request.stores = false)
      (planned : made ++ [request] <+: plan) :
      (Workspace.onWorld (Recorder.onWorld.note request (fun _ => none) attempt)).tolerant.Leads
        (framework.May draft.object plan related) Workspace.log space fun _ next =>
          next.Calling framework draft plan related (made ++ [request]) := by
    rw [Workspace.onWorld, tolerant_onPart]
    apply leads_onPart
    · exact Recorder.onWorld.planned_leads hook calling.course calling.requests planned
    · exact fun _ => rfl
    · intro _ next went
      exact ⟨calling.object, calling.operation, went.1, went.2⟩
  unfold notify Leads
  rw [tolerant_get_bind]
  simp only [calling.object, calling.operation]
  revert planned
  unfold Pending.callback
  cases draft.operation with
  | insert => exact told rfl
  | update => exact told rfl

end Draft

namespace Mapper

variable {mapper : Mapper} {space : Workspace (Logged World)}

theorem registered_leads {draft owner : Draft} {plan : List Request} {related : List Pending}
    {provide : Nat → Outcome FieldValue}
    (calling : space.Calling framework owner plan related []) :
    (Workspace.onRegistry (mapper.registerFields draft provide)).Leads
      (framework.May owner.object plan related) Workspace.log space fun _ next =>
        next.Calling framework owner plan related [] := by
  unfold Leads Workspace.onRegistry onPart
  cases mapper.registerFields draft provide space.surroundings.registry with
  | ok value registry =>
      exact ⟨calling.object, calling.operation, calling.course, calling.requests⟩
  | error error registry => exact .inl calling.course

/-- Preparing carries out the plan. -/
theorem prepare_leads {draft : Draft} {related : List Pending}
    (calling : space.Calling framework draft draft.plan related []) :
    (mapper.prepare framework.logging draft.pending).Leads
      (framework.May draft.object draft.plan related) Workspace.log space
        fun _ next => next.Calling framework draft draft.plan related draft.plan := by
  have written {space : Workspace (Logged World)}
      (calling : space.Calling framework draft draft.plan related []) :
      (each (draft.pending.filter Draft.writesReference) fun relation =>
        (Draft.writeReference framework.logging relation).tolerant).Leads
          (framework.May draft.object draft.plan related) Workspace.log space
            fun _ next => next.Calling framework draft draft.plan related draft.references :=
    leads_each (Pending.reference draft.object)
      (Workspace.Calling framework draft draft.plan related)
      (fun _ _ _ _ calling planned => Draft.writeReference_leads calling planned) calling
      (List.prefix_append _ _)
  have heard {space : Workspace (Logged World)}
      (calling : space.Calling framework draft draft.plan related draft.references) :
      (each (draft.pending.filter fun noted => noted.relation.hearsChanges) fun relation =>
        (Draft.notify framework.logging relation).tolerant).Leads
          (framework.May draft.object draft.plan related) Workspace.log space
            fun _ next => next.Calling framework draft draft.plan related draft.plan :=
    leads_each (Pending.callback draft.object draft.operation)
      (Workspace.Calling framework draft draft.plan related)
      (fun _ _ _ _ calling planned => Draft.notify_leads calling planned) calling List.prefix_rfl
  unfold prepare
  apply leads_get_bind
  apply leads_bind (registered_leads calling)
  intro _ _ calling
  apply leads_bind (written calling)
  exact fun _ _ calling => heard calling

/-- **Every request of a call may come where it does.** The plan is carried out first, and then the
keys of the relations that are not skipped are written. -/
theorem resolvePending_leads {draft : Draft}
    (calling : space.Calling framework draft draft.plan (mapper.unskipped draft) []) :
    (mapper.resolvePending framework.logging draft.pending).Leads
      (framework.May draft.object draft.plan (mapper.unskipped draft)) Workspace.log space
        fun _ next =>
          framework.Storing draft.object draft.plan (mapper.unskipped draft) next.log := by
  rw [resolvePending_eq_prepare]
  apply leads_bind (prepare_leads calling)
  intro _ next calling
  have carriedOut : CarriedOut draft.plan next.log :=
    ⟨next.log, [], (List.append_nil _).symm, calling.requests, List.forall_mem_nil _⟩
  exact Draft.writeAllChildKeys_leads (fun _ member => member) calling.object
    ⟨calling.course, carriedOut⟩

end Mapper

/-! ## The whole call -/

/-- Whether the requests of a log are planned ones in order, and requests to store objects after all
planned ones. -/
def Ordered (plan : List Request) (log : List (Entry World)) : Prop :=
  ∃ called stored, log = called ++ stored ∧ called.map Entry.request <+: plan ∧
    (∀ entry ∈ stored, entry.request.stores = true) ∧
      (stored ≠ [] → called.map Entry.request = plan)

theorem CarriedOut.ordered (carriedOut : CarriedOut plan log) : Ordered plan log := by
  obtain ⟨called, stored, parts, rfl, stores⟩ := carriedOut
  exact ⟨called, stored, parts, List.prefix_rfl, stores, fun _ => rfl⟩

theorem Framework.May.ordered (may : framework.May owner plan related log entry) :
    Ordered plan (log ++ [entry]) := by
  rcases may with planned | ⟨stores, carriedOut, -⟩
  · refine ⟨log ++ [entry], [], (List.append_nil _).symm, ?_, List.forall_mem_nil _, ?_⟩
    · rw [List.map_append, List.map_singleton]
      exact planned
    · exact fun some => (some rfl).elim
  · exact (carriedOut.next stores).ordered

theorem Course.Ended.ordered {error : MappingError}
    (ended : Course.Ended (framework.May owner plan related) error log) : Ordered plan log := by
  rcases ended with course | ⟨earlier, entry, rfl, -, allowed, -⟩
  · cases course with
    | start => exact ⟨[], [], rfl, List.nil_prefix, List.forall_mem_nil _, fun some => (some rfl).elim⟩
    | next _ allowed _ => exact allowed.ordered
  · exact allowed.ordered

/-- The plan holds no requests to store objects. -/
theorem Draft.stores_of_mem_plan {draft : Draft} {request : Request} (planned : request ∈ draft.plan) :
    request.stores = false := by
  rcases List.mem_append.mp planned with reference | callback
  · obtain ⟨pending, -, rfl⟩ := List.mem_map.mp reference
    rfl
  · obtain ⟨pending, -, rfl⟩ := List.mem_map.mp callback
    unfold Pending.callback
    split <;> rfl

theorem Framework.May.warrants {draft : Draft}
    (may : framework.May owner draft.plan related log entry) (stores : entry.request.stores = true) :
    framework.Warrants owner related log entry := by
  rcases may with planned | ⟨-, -, warrants⟩
  · have member : entry.request ∈ draft.plan :=
      planned.mem (List.mem_append_right _ (List.mem_singleton_self _))
    rw [Draft.stores_of_mem_plan member] at stores
    contradiction
  · exact warrants

/-- The call that resolves the relations of a draft, with a log of its requests. -/
def Mapper.loggedRun (mapper : Mapper) (framework : Framework World) (draft : Draft)
    (around : Surroundings World) : Outcome Bool × Workspace (Logged World) :=
  (mapper.resolve framework.logging).outcome ⟨draft, around.unlogged⟩

/-- What is known of the requests of a call. -/
structure Mapper.Disciplined (mapper : Mapper) (framework : Framework World) (draft : Draft)
    (around : Surroundings World) : Prop where
  /-- The log changes nothing. -/
  faithful : (mapper.resolve framework).outcome ⟨draft, around⟩ =
    ((mapper.loggedRun framework draft around).1,
      (mapper.loggedRun framework draft around).2.forgetful)
  /-- Related objects are registered before any request. -/
  registers : ∀ error registry,
    mapper.registerFields draft (framework.fieldValue around.world draft.object) around.registry =
        .error error registry →
      (mapper.loggedRun framework draft around).1 = .error error ∧
        (mapper.loggedRun framework draft around).2.log = []
  /-- No values of fields are read but those of the owner's relation fields, before any request. -/
  reads : ∀ fieldValue : World → Reference → Nat → Outcome FieldValue,
    (∀ position ∈ draft.schema.positionsOf .relation,
      fieldValue around.world draft.object position =
        framework.fieldValue around.world draft.object position) →
      mapper.loggedRun { framework with fieldValue } draft around =
        mapper.loggedRun framework draft around
  /-- References come first, then callbacks, then requests to store objects. -/
  ordered : Ordered draft.plan (mapper.loggedRun framework draft around).2.log
  /-- A call that succeeds has made all planned requests. -/
  carriedOut : ∀ changed, (mapper.loggedRun framework draft around).1 = .ok changed →
    CarriedOut draft.plan (mapper.loggedRun framework draft around).2.log
  /-- A request that fails for good is the last one, and its error is that of the call. -/
  stops : ∀ before entry after error,
    (mapper.loggedRun framework draft around).2.log = before ++ entry :: after →
      entry.stops = some error →
        after = [] ∧ (mapper.loggedRun framework draft around).1 = .error error
  /-- Objects are stored on behalf of related objects without a key. -/
  warranted : ∀ before entry after,
    (mapper.loggedRun framework draft around).2.log = before ++ entry :: after →
      entry.request.stores = true →
        framework.Warrants draft.object (mapper.unskipped draft) before entry
  /-- Provisional failures of references and callbacks change nothing. -/
  tolerates : ∀ (writeReference : Reference → Field → FieldValue → Attempt (Record × World) Unit)
    (inserted updated : Reference → Field → Attempt World Unit),
    (∀ owner field value, (writeReference owner field value).tolerant =
      (framework.writeReference owner field value).tolerant) →
    (∀ owner field, (inserted owner field).tolerant = (framework.inserted owner field).tolerant) →
    (∀ owner field, (updated owner field).tolerant = (framework.updated owner field).tolerant) →
      let other := mapper.loggedRun { framework with writeReference, inserted, updated } draft around
      let run := mapper.loggedRun framework draft around
      other.1 = run.1 ∧ other.2.forgetful = run.2.forgetful ∧
        other.2.log.map Entry.question = run.2.log.map Entry.question

namespace Mapper

variable {mapper : Mapper} {draft : Draft}

theorem loggedRun_leads (mapper : Mapper) (framework : Framework World)
    (around : Surroundings World) (waits : draft.pending ≠ [])
    (complete : draft.key.isComplete = true) :
    (mapper.resolve framework.logging).Leads
      (framework.May draft.object draft.plan (mapper.unskipped draft)) Workspace.log
        ⟨draft, around.unlogged⟩ fun _ next =>
          framework.Storing draft.object draft.plan (mapper.unskipped draft) next.log := by
  unfold Leads
  rw [resolve_of_complete waits complete]
  exact resolvePending_leads ⟨rfl, rfl, .start, rfl⟩

/-- Nothing is requested if the related objects cannot be registered. -/
theorem resolve_of_unregistered {space : Workspace World} {error : MappingError}
    {registry : ParentRegistry} (waits : space.draft.pending ≠ [])
    (complete : space.draft.key.isComplete = true)
    (failed : mapper.registerFields space.draft
      (framework.fieldValue space.world space.draft.object) space.surroundings.registry =
        .error error registry) :
    mapper.resolve framework space = .error error
      ⟨{ space.draft with pending := [] }, registry, space.world⟩ := by
  have failedToo : mapper.registerFields { space.draft with pending := [] }
      (framework.fieldValue space.world space.draft.object) space.surroundings.registry =
        .error error registry :=
    (congrFun (registerFields_congr rfl rfl fun _ _ => rfl) _).trans failed
  rw [resolve_of_complete waits complete, resolvePending, get_bind]
  exact bind_of_error (onPart_of_error failedToo)

/-- **The phases of a call.** The relation fields are read first; then references are written and
changes told, once for each relation that asks for it; then related objects are stored. The first
request that fails for good ends the call. -/
theorem resolve_discipline (mapper : Mapper) (framework : Framework World)
    (around : Surroundings World) (waits : draft.pending ≠ [])
    (complete : draft.key.isComplete = true) : mapper.Disciplined framework draft around := by
  have ends := (loggedRun_leads mapper framework around waits complete).outcome
  constructor
  case faithful => exact resolve_logging mapper framework ⟨draft, around.unlogged⟩
  case registers =>
    intro error registry failed
    have unregistered : mapper.resolve framework.logging ⟨draft, around.unlogged⟩ = _ :=
      resolve_of_unregistered waits complete failed
    unfold loggedRun outcome
    rw [unregistered]
    exact ⟨rfl, rfl⟩
  case reads =>
    intro fieldValue reads
    rw [loggedRun, Framework.logging_reading, outcome,
      resolve_reading framework.logging ⟨draft, around.unlogged⟩ (fun state => fieldValue state.world)
        reads]
    rfl
  case ordered =>
    rcases ends with ⟨changed, -, storing⟩ | ⟨error, -, ended⟩
    · exact storing.carriedOut.ordered
    · exact ended.ordered
  case carriedOut =>
    intro changed succeeded
    rcases ends with ⟨changed, -, storing⟩ | ⟨error, failed, -⟩
    · exact storing.carriedOut
    · cases failed.symm.trans succeeded
  case stops =>
    intro before entry after error parts stopped
    rcases ends with ⟨changed, -, storing⟩ | ⟨reported, failed, ended⟩
    · rw [(storing.course.split parts).2] at stopped
      contradiction
    · obtain ⟨last, rfl⟩ := (ended.split parts).2 error stopped
      exact ⟨last, failed⟩
  case warranted =>
    intro before entry after parts stores
    rcases ends with ⟨changed, -, storing⟩ | ⟨error, -, ended⟩
    · exact (storing.course.split parts).1.warrants stores
    · exact (ended.split parts).1.warrants stores
  case tolerates =>
    intro writeReference inserted updated written insertedAlike updatedAlike other run
    obtain ⟨same, left⟩ := (resolve_tolerating mapper ⟨draft, around.unlogged⟩ written insertedAlike
      updatedAlike).outcome
    have forgetful : other.2.forgetful = run.2.forgetful :=
      congrArg₂ Workspace.mk left.draft.eq
        (congrArg₂ Surroundings.mk left.surroundings.registry left.surroundings.world.world)
    exact ⟨same.symm, forgetful, left.surroundings.world.questions⟩

/-- The book has no key, so that it is flushed once the library was told of its insertion. -/
theorem resolve_discipline_books :
    bookMapper.Disciplined flushingFramework libraryWithBooks ⟨{}, none⟩ ∧
      (bookMapper.loggedRun flushingFramework libraryWithBooks ⟨{}, none⟩).2.log.map Entry.request =
        [.inserted libraryWithBooks.object booksField, .flush book] :=
  ⟨resolve_discipline bookMapper flushingFramework ⟨{}, none⟩ (List.cons_ne_nil _ _) rfl, rfl⟩

end Mapper

end RecordMapping
