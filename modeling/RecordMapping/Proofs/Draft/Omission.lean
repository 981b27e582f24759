import RecordMapping.Proofs.Draft.Discipline
import RecordMapping.Proofs.Draft.FailedFields
import RecordMapping.Proofs.Draft.Registration

/-!
# Relations that are kept out of the record

The keys of owned objects stay out of the record of their owner where its generation of records does
not hold such keys, and where the other side of the relation stores it. Filling such a field notes
its relation and does nothing else, in whatever embedded object it lies, and resolving passes it over
(`Mapper.PassesOver`). The objects are registered under the owner's key all the same, which does not
depend on the generation.
-/

namespace RecordMapping

open Attempt

/-- A relation field whose objects are owned, and whose keys either the generation of records does
not hold or the other side of the relation stores. -/
structure Mapper.LeavesOut (mapper : Mapper) (field : Field) (relation : Relation) : Prop where
  bare : field.embedding = none
  unpacked : field.isPacked = false
  related : field.relation = some relation
  owned : relation.owned = true
  elsewhere : mapper.settings.generation.rank < Generation.writingChildKeys.rank ∨
    relation.direction = .manyToOne ∨
    relation.direction = .oneToOne ∧ relation.mappedBy.isSome = true

/-- A framework whose references leave records alone, whether they are written or fail. -/
def Framework.LeavesRecords {World : Type} (framework : Framework World) : Prop :=
  ∀ owner field value record world,
    ((framework.writeReference owner field value).outcome (record, world)).2.1 = record

/-- The properties of a given name. -/
def Record.named (record : Record) (name : String) : List Property :=
  record.properties.filter fun property => property.name = name

theorem Property.filter_put_of_ne {property : Property} {name : String}
    (different : property.name ≠ name) (properties : List Property) :
    (put property properties).filter (fun other => other.name = name) =
      properties.filter fun other => other.name = name := by
  induction properties with
  | nil => simp [put, different]
  | cons first rest ih =>
      rw [put]
      split
      case isTrue same =>
        rw [List.filter_cons_of_neg (by simpa using different),
          List.filter_cons_of_neg (by simpa [same] using different)]
      case isFalse => rw [List.filter_cons, List.filter_cons, ih]

theorem Record.named_put_of_ne {name other : String} (different : other ≠ name) (record : Record)
    (value : Value) (indexed : Bool) :
    (record.put other value indexed).named name = record.named name :=
  Property.filter_put_of_ne different record.properties

theorem Record.named_putAll_of_ne {name : String} {properties : List Property}
    (apart : ∀ property ∈ properties, property.name ≠ name) (record : Record) :
    (record.putAll properties).named name = record.named name := by
  induction properties generalizing record with
  | nil => rfl
  | cons first rest ih =>
      obtain ⟨other, others⟩ := List.forall_mem_cons.mp apart
      exact (ih others _).trans (Record.named_put_of_ne other _ _ _)

/-- Two drafts that differ in the relations that wait in them at most. -/
def Draft.SameButPending (first second : Draft) : Prop :=
  second = { first with pending := second.pending }

namespace Draft.SameButPending

variable {first second : Draft}

theorem refl (draft : Draft) : draft.SameButPending draft :=
  rfl

theorem sameSetting (same : first.SameButPending second) : first.SameSetting second := by
  rw [same]
  exact ⟨rfl, rfl, rfl⟩

end Draft.SameButPending

namespace Mapper

variable {mapper : Mapper} {knownKey : Reference → Option Key} {draft twin : Draft} {field : Field}
  {relation : Relation} {embedding : Option (Embedding Field)} {position : Nat} {value : FieldValue}
  {leaf : Leaf}

theorem LeavesOut.skips (out : mapper.LeavesOut field relation) : mapper.skips relation = true := by
  have gate : (!mapper.settings.keepsChildKeys || relation.isStoredElsewhere) = true := by
    rw [Bool.or_eq_true, Bool.not_eq_true', Settings.keepsChildKeys, Generation.covers,
      decide_eq_false_iff_not, Nat.not_le]
    rcases out.elsewhere with older | several | ⟨single, mapped⟩
    · exact .inl older
    · exact .inr (by rw [Relation.isStoredElsewhere, several])
    · exact .inr (by rw [Relation.isStoredElsewhere, single, mapped])
  rw [Mapper.skips, out.owned, gate]
  rfl

/-! ## Filling -/

theorem putOf_of_leavesOut (out : mapper.LeavesOut leaf.field relation) :
    mapper.putOf knownKey draft leaf = .ok none := by
  simp only [putOf, out.unpacked, out.related, storesAtOnce, out.skips, Bool.not_true,
    Bool.false_and, Bool.false_eq_true, ↓reduceIte]
  rfl

theorem storeReached_of_leavesOut (out : mapper.LeavesOut leaf.field relation) (draft : Draft) :
    mapper.storeReached knownKey (.ok leaf) draft = .ok () (draft.noting (mapper.notedOf leaf)) := by
  have stored := storeLeaf_eq mapper knownKey leaf draft
  rw [putOf_of_leavesOut out] at stored
  exact stored

/-- A relation that is left out is noted at most. -/
theorem storeField_of_leavesOut (knownKey : Reference → Option Key)
    (embedding : Option (Embedding Field)) (position : Nat) (value : FieldValue) (draft : Draft)
    (out : mapper.LeavesOut field relation) :
    ∃ noted : Option Pending,
      mapper.storeField knownKey embedding position field value draft =
        .ok () (draft.noting noted) ∧
      ∀ pending ∈ noted, pending.relation = relation ∧
        pending.property = mapper.propertyIn embedding field := by
  rw [storeField_eq_each, Field.leaves_of_bare out.bare]
  by_cases written : field.isWrittenBy draft.operation = true
  · refine ⟨mapper.notedOf ⟨embedding, position, field, value⟩, ?_, ?_⟩
    · rw [if_pos written, each_singleton, storeReached_of_leavesOut out]
    · simp only [notedOf, out.unpacked, out.related]
      rintro _ ⟨⟩
      exact ⟨rfl, rfl⟩
  · refine ⟨none, ?_, by simp⟩
    rw [if_neg written, Draft.noting_none]
    rfl

/-- What is stored of a leaf does not depend on the relations that were noted before it. -/
theorem storeReached_ignores_pending (reached : Outcome Leaf) (same : draft.SameButPending twin) :
    Agree Draft.SameButPending (mapper.storeReached knownKey reached draft)
      (mapper.storeReached knownKey reached twin) := by
  unfold storeReached
  apply agree_outcome_bind same
  intro leaf
  rw [storeLeaf_eq, storeLeaf_eq, putOf_eq_of_sameSetting same.sameSetting]
  cases mapper.putOf knownKey draft leaf with
  | ok put =>
      refine .ok ?_
      rw [same]
      rfl
  | error error =>
      refine .error ?_
      rw [same]
      rfl

/-- **A leaf that is left out might as well not be there**, whatever its value, as far as the result
and the record go. -/
theorem each_omitting (earlier later : List (Outcome Leaf)) (draft : Draft)
    (out : mapper.LeavesOut leaf.field relation) :
    Agree Draft.SameButPending
      (each (earlier ++ .ok leaf :: later) (mapper.storeReached knownKey) draft)
      (each (earlier ++ later) (mapper.storeReached knownKey) draft) := by
  rw [each_append, each_append]
  have before : Agree Draft.SameButPending (each earlier (mapper.storeReached knownKey) draft)
      (each earlier (mapper.storeReached knownKey) draft) := .refl Draft.SameButPending.refl _
  apply agree_bind before
  intro _ middle between same
  have noted : (middle.noting (mapper.notedOf leaf)).SameButPending between := by
    rw [same]
    rfl
  rw [each, bind_of_ok (storeReached_of_leavesOut out middle)]
  exact agree_each (List.forall₂_same.mpr fun _ _ => rfl)
    (fun reached _ here _ _ same => here ▸ storeReached_ignores_pending reached same) noted

/-- A field of which anything is reached is stored leaf by leaf. -/
theorem fillField_of_reached (present : draft.reachedAt position value ≠ []) :
    mapper.fillField knownKey position value draft =
      each (draft.reachedAt position value) (mapper.storeReached knownKey) draft := by
  unfold Draft.reachedAt at present ⊢
  cases found : draft.schema.field position with
  | error error =>
      rw [found] at present
      exact (present rfl).elim
  | ok field =>
      simp only [found] at present
      by_cases inKey : field.isInKey = true
      · rw [if_pos inKey] at present
        exact (present rfl).elim
      · rw [fillField_of_not_inKey mapper knownKey value found (by simpa using inKey),
          storeField_eq_each]
        simp only [inKey]
        rfl

/-! ## Resolving -/

/-- **Resolving leaves alone what no written relation changes.** -/
theorem resolve_fixes_record {World β : Type} {framework : Framework World}
    {space : Workspace World} (leaves : framework.LeavesRecords) (view : Record → β)
    (apart : ∀ pending ∈ space.draft.pending, mapper.skips pending.relation = false →
      ∀ record value indexed, view (record.put pending.property value indexed) = view record) :
    (mapper.resolve framework).Keeps (Law.fixing fun space => view space.draft.record) space := by
  apply keeps_resolve
  · trivial
  · rfl
  apply keeps_resolvePending
  · exact keeps_onPart_fixing fun _ => rfl
  · intro pending space
    apply Draft.keeps_writeReference fun _ _ => trivial
    apply keeps_outcome _ fun _ _ => trivial
    rw [Workspace.onRecord, outcome_onPart]
    exact congrArg view (leaves _ _ _ space.draft.record space.world)
  · intro _ _
    exact Draft.keeps_notify (keeps_onPart_fixing fun _ => rfl) (keeps_onPart_fixing fun _ => rfl)
  · intro pending waits written _
    apply Draft.keeps_writeChildKeys (keeps_onPart_fixing fun _ => rfl)
    exact fun after value => apart pending waits written after.draft.record value _

/-! ## Nothing but relations that are left out -/

section

variable {World : Type} {framework : Framework World} {around : Surroundings World}
  {final : Workspace World} {changed : Bool}

theorem unskipped_eq_nil
    (skipped : ∀ pending ∈ draft.pending, mapper.skips pending.relation = true) :
    mapper.unskipped draft = [] := by
  apply List.filter_eq_nil_iff.mpr
  intro pending member
  simp [skipped pending member]

/-- With nothing to write, a call ends with the registry that registration left. -/
theorem resolve_of_skipped
    (skipped : ∀ pending ∈ draft.pending, mapper.skips pending.relation = true)
    (done : (mapper.resolve framework).Gives ⟨draft, around⟩ changed final) :
    changed = false ∧ (draft.pending ≠ [] →
      mapper.registerFields draft (framework.fieldValue around.world draft.object)
        around.registry = .ok () final.surroundings.registry) := by
  by_cases empty : draft.pending = []
  · have idle : mapper.resolve framework ⟨draft, around⟩ = .ok false ⟨draft, around⟩ :=
      resolve_of_nil framework empty
    rw [Gives, idle] at done
    exact ⟨(EStateM.Result.ok.inj done).1.symm, fun waits => (waits empty).elim⟩
  · obtain ⟨-, ready, prepared, written⟩ := resolve_parts empty done
    rw [unskipped_eq_nil skipped] at written
    obtain ⟨rfl, rfl⟩ := written.pure
    exact ⟨rfl, fun _ => prepare_registers prepared⟩

/-- With nothing to write, no object is stored: there is none to store an object for. -/
theorem stores_eq_false_of_skipped (framework : Framework World) (around : Surroundings World)
    (skipped : ∀ pending ∈ draft.pending, mapper.skips pending.relation = true) :
    ∀ entry ∈ (mapper.loggedRun framework draft around).2.log, entry.request.stores = false := by
  intro entry asked
  by_cases waits : draft.pending = []
  · rw [loggedRun, outcome, resolve_of_nil framework.logging waits] at asked
    exact (List.not_mem_nil asked).elim
  by_cases complete : draft.key.isComplete = true
  · have disciplined := resolve_discipline mapper framework around waits complete
    have nothing : mapper.unskipped draft = [] := unskipped_eq_nil skipped
    have warrants {before after : List (Entry World)} {entry : Entry World}
        (parts : (mapper.loggedRun framework draft around).2.log = before ++ entry :: after)
        (stores : entry.request.stores = true) :
        framework.Warrants draft.object [] before entry :=
      nothing ▸ disciplined.warranted before entry after parts stores
    rw [← Bool.not_eq_true]
    intro stores
    obtain ⟨before, after, parts⟩ := List.append_of_mem asked
    cases warrants parts stores with
    | persisted member => exact List.not_mem_nil member
    | flushed member => exact List.not_mem_nil member
    | handed given =>
        -- The object was given for one that was made persistent before, on behalf of none.
        rw [given, List.append_assoc] at parts
        cases warrants parts rfl with
        | persisted member => exact List.not_mem_nil member
    | replaced member => exact List.not_mem_nil member
  · rw [Bool.not_eq_true] at complete
    rw [loggedRun, outcome, resolve_of_incomplete waits complete] at asked
    exact (List.not_mem_nil asked).elim

end

/-- What both passes over the relations of a draft make of those that are left out. -/
structure PassesOver {World : Type} (mapper : Mapper) (framework : Framework World) (draft : Draft)
    (around : Surroundings World) : Prop where
  /-- A relation that is left out is noted at most, in whatever embedded object it lies. -/
  stores : ∀ knownKey embedding position field relation value,
    mapper.LeavesOut field relation → ∃ noted : Option Pending,
      mapper.storeField knownKey embedding position field value draft =
        .ok () (draft.noting noted) ∧
      ∀ pending ∈ noted, pending.relation = relation ∧
        pending.property = mapper.propertyIn embedding field
  /-- So is one of the class itself. -/
  fills : ∀ knownKey position field relation value,
    draft.schema.field position = .ok field → field.role = .relation →
      mapper.LeavesOut field relation → ∃ noted : Option Pending,
        mapper.fillField knownKey position value draft = .ok () (draft.noting noted)
  /-- A field of the class comes to the same, but for relations that wait, without the relations
  that are left out within its embedded objects. -/
  omits : ∀ knownKey position value earlier leaf later relation,
    draft.reachedAt position value = earlier ++ .ok leaf :: later →
      mapper.LeavesOut leaf.field relation →
        Agree Draft.SameButPending (mapper.fillField knownKey position value draft)
          (each (earlier ++ later) (mapper.storeReached knownKey) draft)
  /-- Resolving, whether it succeeds or fails, writes the properties of other relations only. -/
  resolves : ∀ name,
    (∀ pending ∈ draft.pending, mapper.skips pending.relation = false → pending.property ≠ name) →
      ((mapper.resolve framework).outcome ⟨draft, around⟩).2.draft.record.named name =
        draft.record.named name
  /-- If all relations that wait are left out, a call that succeeds tells of no change and leaves
  the record as it was. -/
  rests : (∀ pending ∈ draft.pending, mapper.skips pending.relation = true) →
    ∀ changed final, mapper.resolve framework ⟨draft, around⟩ = .ok changed final →
      changed = false ∧ final.draft.record = draft.record
  /-- Then no object is stored, or replaced. -/
  asks : (∀ pending ∈ draft.pending, mapper.skips pending.relation = true) →
    ∀ entry ∈ (mapper.loggedRun framework draft around).2.log, entry.request.stores = false
  /-- Yet the related objects are registered as they are for any generation of records, and the
  children under the record's key. -/
  registers : (∀ pending ∈ draft.pending, mapper.skips pending.relation = true) →
    draft.pending ≠ [] →
      ∀ changed final, mapper.resolve framework ⟨draft, around⟩ = .ok changed final →
        let provide := framework.fieldValue around.world draft.object
        (∀ settings, { mapper with settings }.registerFields draft provide around.registry =
          .ok () final.surroundings.registry) ∧
        ∀ child, draft.Owns provide child →
          final.surroundings.registry.parent? child.id = some draft.key

/-- **Relations that are left out never reach the record**, in either pass, whatever their values
are and whatever else waits; their objects are registered all the same. -/
theorem passes_over (mapper : Mapper) {World : Type} {framework : Framework World}
    (leaves : framework.LeavesRecords) (draft : Draft) (around : Surroundings World) :
    mapper.PassesOver framework draft around := by
  constructor
  case stores =>
    intro knownKey embedding position field relation value out
    exact storeField_of_leavesOut knownKey embedding position value draft out
  case fills =>
    intro knownKey position field relation value found role out
    have plain : field.isInKey = false := field.isInKey_eq_false_iff.mpr (.inl role)
    rw [fillField_of_not_inKey mapper knownKey value found plain]
    obtain ⟨noted, stored, -⟩ := storeField_of_leavesOut knownKey none position value draft out
    exact ⟨noted, stored⟩
  case omits =>
    intro knownKey position value earlier leaf later relation reached out
    have present : draft.reachedAt position value ≠ [] := by
      rw [reached]
      exact List.append_ne_nil_of_right_ne_nil _ (List.cons_ne_nil _ _)
    rw [fillField_of_reached present, reached]
    exact each_omitting earlier later draft out
  case resolves =>
    intro name apart
    have fixes : (mapper.resolve framework).Keeps
        (Law.fixing fun space => space.draft.record.named name) ⟨draft, around⟩ := by
      apply resolve_fixes_record leaves fun record => record.named name
      intro pending waits written record value indexed
      exact record.named_put_of_ne (apart pending waits written) value indexed
    exact fixes.allows
  case rests =>
    intro skipped changed final done
    refine ⟨(resolve_of_skipped skipped done).1, ?_⟩
    have fixes : (mapper.resolve framework).Keeps (Law.fixing fun space => space.draft.record)
        ⟨draft, around⟩ := by
      apply resolve_fixes_record leaves id
      intro pending waits written
      rw [skipped pending waits] at written
      contradiction
    exact fixes.of_ok done
  case asks => exact fun skipped => stores_eq_false_of_skipped framework around skipped
  case registers =>
    intro skipped waits changed final done provide
    have passed := (resolve_of_skipped skipped done).2 waits
    exact ⟨fun _ => passed, fun child held => registerFields_announces passed held⟩

/-- A mapper that writes records without the keys of children. -/
def frugalMapper : Mapper :=
  { bookMapper with settings := { generation := .withoutChildKeys } }

/-- The books of a library stay out of its record. They are registered under its key, and not
flushed. -/
theorem passes_over_books :
    frugalMapper.LeavesOut booksField (.collection "Book") ∧
      frugalMapper.PassesOver flushingFramework libraryWithBooks ⟨{}, none⟩ ∧
      frugalMapper.resolve flushingFramework ⟨libraryWithBooks, ⟨{}, none⟩⟩ =
        .ok false ⟨{ libraryWithBooks with pending := [] },
          ⟨{ parents := [(book.id, library)] }, none⟩⟩ := by
  have out : frugalMapper.LeavesOut booksField (.collection "Book") :=
    ⟨rfl, rfl, rfl, rfl, .inl (by decide)⟩
  have leaves : flushingFramework.LeavesRecords := fun _ _ _ _ _ => rfl
  exact ⟨out, passes_over frugalMapper leaves libraryWithBooks ⟨{}, none⟩, rfl⟩

end Mapper

end RecordMapping
