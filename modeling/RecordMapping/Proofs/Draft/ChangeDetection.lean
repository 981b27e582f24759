import RecordMapping.Proofs.Draft.KeyParts
import RecordMapping.Proofs.Draft.Omission

/-!
# Telling whether a record was changed

Resolving relations tells whether the record has to be written once more. Each relation whose stored
value differs from the one that the record holds is written, and only then the call tells of a
change. As no two relations have the same property, no later write takes an earlier one back, so the
call tells of a change exactly if the properties are others than before (`Record.Detects`).
-/

namespace RecordMapping

open Attempt

/-! ## Properties that are set in order -/

instance : ReflBEq Value :=
  ⟨Value.same_self _⟩

instance : ReflBEq Property where
  rfl {property} := by
    change (property.name == property.name && property.value == property.value &&
      property.indexed == property.indexed) = true
    simp

namespace Property

/-- Properties that count as the same hold values that count as the same. -/
theorem find?_alike {first second : List Property} (alike : (first == second) = true)
    (name : String) :
    ((first.find? fun property => property.name = name).map Property.value ==
      (second.find? fun property => property.name = name).map Property.value) = true := by
  induction first generalizing second with
  | nil =>
      cases second with
      | nil => rfl
      | cons _ _ => contradiction
  | cons a as ih =>
      cases second with
      | nil => contradiction
      | cons b bs =>
          rw [List.cons_beq_cons, Bool.and_eq_true] at alike
          obtain ⟨here, later⟩ := alike
          change (a.name == b.name && a.value == b.value && a.indexed == b.indexed) = true at here
          simp only [Bool.and_eq_true, beq_iff_eq] at here
          obtain ⟨⟨sameName, sameValue⟩, -⟩ := here
          by_cases found : b.name = name
          · rw [List.find?_cons_of_pos (by simp [sameName, found]),
              List.find?_cons_of_pos (by simp [found])]
            exact sameValue
          · rw [List.find?_cons_of_neg (by simp [sameName, found]),
              List.find?_cons_of_neg (by simp [found])]
            exact ih later

end Property

namespace Record

variable {record : Record} {name : String} {properties : List Property}

theorem get?_putAll_of_ne (apart : ∀ property ∈ properties, property.name ≠ name)
    (record : Record) : (record.putAll properties).get? name = record.get? name := by
  induction properties generalizing record with
  | nil => rfl
  | cons first rest ih =>
      obtain ⟨other, others⟩ := List.forall_mem_cons.mp apart
      exact (ih others _).trans (get?_put_of_ne other _ _ _)

theorem names_putAll (record : Record) (properties : List Property) :
    record.properties.map Property.name <+:
      (record.putAll properties).properties.map Property.name := by
  induction properties generalizing record with
  | nil => exact List.prefix_refl _
  | cons first rest ih =>
      have added : record.properties.map Property.name <+:
          (record.put first.name first.value first.indexed).properties.map Property.name :=
        Property.names_put _ _
      exact added.trans (ih _)

theorem mem_putAll {property : Property}
    (member : property ∈ (record.putAll properties).properties) :
    property ∈ record.properties ∨ ∃ put ∈ properties, property =
      ⟨put.name, put.value, put.indexed && !put.value.isUnindexable⟩ := by
  induction properties generalizing record with
  | nil => exact .inl member
  | cons first rest ih =>
      rcases ih member with here | ⟨put, later, same⟩
      · rcases Property.eq_or_mem_of_mem_put here with same | before
        · exact .inr ⟨first, List.mem_cons_self, same⟩
        · exact .inl before
      · exact .inr ⟨put, List.mem_cons_of_mem first later, same⟩

end Record

/-! ## What a pass writes -/

/-- A relation and the value that was written for it. -/
structure Written where
  pending : Pending
  value : Value

/-- The property that was put for a relation. -/
def Written.property (written : Written) : Property :=
  ⟨written.pending.property, written.value, written.pending.field.isIndexed⟩

namespace Record

/-- Whether some values were written for some of the given relations, in their order, each in the
place of another value, and nothing else. -/
structure Takes (before after : Record) (noted : List Pending) (writes : List Written) : Prop where
  among : (writes.map Written.pending).Sublist noted
  fresh : ∀ write ∈ writes, (before.get? write.pending.property == some write.value) = false
  plain : ∀ write ∈ writes, write.value.isUnindexable = false
  after : after = before.putAll (writes.map Written.property)

/-- Whether a call tells rightly that a record was changed for the sake of some relations. -/
structure Detects (before after : Record) (noted : List Pending) (changed : Bool) : Prop where
  differs : changed = true ↔ after.properties ≠ before.properties
  /-- Neither do the properties count as the same, by which a framework would tell a change. -/
  compares : changed = !(before.properties == after.properties)
  same : changed = false → after = before
  key : after.key = before.key
  /-- What is new in the record was put for one of the relations, and is indexed as its field
  says. -/
  only : ∀ property ∈ after.properties, property ∈ before.properties ∨
    ∃ pending ∈ noted, property.name = pending.property ∧
      property.indexed = pending.field.isIndexed ∧
      before.get? property.name ≠ some property.value
  kept : ∀ name, name ∉ noted.map Pending.property → after.named name = before.named name
  /-- Properties keep their places, and new ones come last. -/
  ordered : before.properties.map Property.name <+: after.properties.map Property.name

variable {before after : Record} {noted : List Pending} {writes : List Written} {write : Written}

theorem Takes.property_mem (takes : before.Takes after noted writes) (member : write ∈ writes) :
    write.pending ∈ noted :=
  takes.among.subset (List.mem_map_of_mem member)

/-- The first value that was written is still there at the end. -/
theorem Takes.get?_first (distinct : (noted.map Pending.property).Nodup)
    (takes : before.Takes after noted (write :: writes)) :
    after.get? write.pending.property = some write.value := by
  have names := distinct.sublist (takes.among.map Pending.property)
  rw [List.map_cons, List.map_cons, List.nodup_cons] at names
  have apart : ∀ property ∈ writes.map Written.property, property.name ≠ write.pending.property := by
    intro property later same
    obtain ⟨other, member, rfl⟩ := List.mem_map.mp later
    exact names.1 (List.mem_map.mpr ⟨other.pending, List.mem_map_of_mem member, same⟩)
  rw [takes.after]
  exact (get?_putAll_of_ne apart _).trans (get?_put _ _ _ _)

theorem Takes.eq_of_nil (takes : before.Takes after noted []) : after = before :=
  takes.after

/-- A write shows, because the value that it put is another one than before. -/
theorem Takes.compares (distinct : (noted.map Pending.property).Nodup)
    (takes : before.Takes after noted writes) :
    (!writes.isEmpty) = !(before.properties == after.properties) := by
  cases writes with
  | nil => rw [takes.eq_of_nil]; simp
  | cons write rest =>
      have differs : (before.properties == after.properties) = false := by
        rw [← Bool.not_eq_true]
        intro alike
        have held := Property.find?_alike alike write.pending.property
        have found := takes.get?_first distinct
        have fresh := takes.fresh write List.mem_cons_self
        unfold get? at found fresh
        rw [found, fresh] at held
        contradiction
      rw [differs]
      rfl

theorem Takes.detects (distinct : (noted.map Pending.property).Nodup)
    (takes : before.Takes after noted writes) : before.Detects after noted (!writes.isEmpty) := by
  have key : after.key = before.key := by rw [takes.after, key_putAll]
  have compares := takes.compares distinct
  refine ⟨?differs, compares, ?same, key, ?only, ?kept, ?ordered⟩
  case differs =>
    rw [compares]
    constructor
    · intro told same
      rw [same] at told
      simp at told
    · intro other
      cases writes with
      | nil => exact (other (congrArg Record.properties takes.eq_of_nil)).elim
      | cons write rest => rw [← compares]; rfl
  case same =>
    intro told
    obtain rfl : writes = [] := by simpa using told
    exact takes.eq_of_nil
  case only =>
    intro property member
    rw [takes.after] at member
    rcases mem_putAll member with old | ⟨_, put, rfl⟩
    · exact .inl old
    · obtain ⟨write, written, rfl⟩ := List.mem_map.mp put
      refine .inr ⟨write.pending, takes.property_mem written, rfl, ?_, ?_⟩
      · simp [Written.property, takes.plain write written]
      · intro held
        have fresh := takes.fresh write written
        rw [show before.get? write.pending.property = some write.value from held] at fresh
        simp at fresh
  case kept =>
    intro name foreign
    rw [takes.after]
    apply named_putAll_of_ne
    intro property put same
    obtain ⟨write, written, rfl⟩ := List.mem_map.mp put
    exact foreign (List.mem_map.mpr ⟨write.pending, takes.property_mem written, same⟩)
  case ordered =>
    rw [takes.after]
    exact before.names_putAll _

end Record

/-! ## Passes -/

theorem Framework.Settles.isUnindexable_eq_false {World : Type} {framework : Framework World}
    {start finish : Surroundings World} {pending : Pending} {owner : Key} {stored : Value}
    (settled : framework.Settles start pending owner stored finish) :
    stored.isUnindexable = false := by
  unfold Framework.Settles at settled
  split at settled
  case h_1 => rw [settled]; rfl
  case h_2 =>
    rcases settled.2 with ⟨-, rfl⟩ | ⟨-, key, -, -, rfl⟩
    · rfl
    · rfl
  case h_3 =>
    obtain ⟨-, keys, -, -, rfl⟩ := settled
    rfl
  case h_4 => exact settled.elim

namespace Draft

variable {World : Type} {framework : Framework World} {pending : Pending}
  {space final : Workspace World} {changed : Bool}

/-- The keys of a relation are put exactly if the record holds another value. -/
theorem writeChildKeys_cases (done : (writeChildKeys framework pending).Gives space changed final) :
    (changed = false ∧ final.draft = space.draft) ∨
      (changed = true ∧ ∃ value, value.isUnindexable = false ∧
        (space.draft.record.get? pending.property == some value) = false ∧
        final.draft = space.draft.put pending.property pending.field.isIndexed value) := by
  unfold writeChildKeys at done
  replace done := done.get_bind
  obtain ⟨stored, middle, collected, rest⟩ := done.bind
  obtain ⟨around, collectedAround, rfl⟩ := collected.onPart
  split at rest
  case isTrue =>
    obtain ⟨rfl, rfl⟩ := rest.pure
    exact .inl ⟨rfl, rfl⟩
  case isFalse other =>
    obtain ⟨_, _, put, made⟩ := rest.bind
    obtain ⟨rfl, rfl⟩ := made.pure
    obtain ⟨-, rfl⟩ := EStateM.Result.ok.inj put
    have plain := (childKeys_gives collectedAround).isUnindexable_eq_false
    exact .inr ⟨rfl, stored, plain, eq_false_of_ne_true other, rfl⟩

/-- **A loop over relations writes for some of them**, and tells whether it did. The induction is on
the relations: those after the first have other properties, so that its write leaves open whether
theirs are needed. -/
theorem writeAllChildKeys_takes {noted : List Pending}
    (distinct : (noted.map Pending.property).Nodup)
    (done : (writeAllChildKeys framework noted).Gives space changed final) :
    ∃ writes, space.draft.record.Takes final.draft.record noted writes ∧
      changed = !writes.isEmpty := by
  induction noted generalizing space changed with
  | nil =>
      obtain ⟨rfl, rfl⟩ := done.pure
      exact ⟨[], ⟨List.Sublist.refl _, by simp, by simp, rfl⟩, rfl⟩
  | cons pending rest ih =>
      obtain ⟨apart, distinctRest⟩ := List.nodup_cons.mp distinct
      unfold writeAllChildKeys at done
      obtain ⟨changedHere, middle, written, remaining⟩ := done.bind
      obtain ⟨changedMore, last, writtenRest, made⟩ := remaining.bind
      obtain ⟨rfl, rfl⟩ := made.pure
      obtain ⟨writes, takes, told⟩ := ih distinctRest writtenRest
      rcases writeChildKeys_cases written with ⟨rfl, same⟩ | ⟨rfl, value, plain, other, put⟩
      · rw [same] at takes
        refine ⟨writes, ⟨takes.among.cons pending, takes.fresh, takes.plain, takes.after⟩, ?_⟩
        rw [told, Bool.false_or]
      · refine ⟨⟨pending, value⟩ :: writes, ⟨takes.among.cons_cons pending, ?_, ?_, ?_⟩, rfl⟩
        · refine List.forall_mem_cons.mpr ⟨other, fun write member => ?_⟩
          have different : pending.property ≠ write.pending.property := fun same =>
            apart (same ▸ List.mem_map_of_mem (takes.property_mem member))
          have fresh := takes.fresh write member
          rw [put, Draft.put, Record.get?_put_of_ne different] at fresh
          exact fresh
        · exact List.forall_mem_cons.mpr ⟨plain, takes.plain⟩
        · rw [takes.after, put]
          rfl

end Draft

namespace Mapper

variable {World : Type} {mapper : Mapper} {framework : Framework World}
  {space final : Workspace World} {noted : List Pending} {changed : Bool}

/-- Preparing leaves the draft alone, if references leave records alone. -/
theorem prepare_fixes_draft (leaves : framework.LeavesRecords) :
    (mapper.prepare framework noted).Keeps (Law.fixing Workspace.draft) space := by
  have referenced (pending : Pending) (space : Workspace World) :
      (Draft.writeReference framework pending).Keeps (Law.fixing Workspace.draft) space := by
    apply Draft.keeps_writeReference fun _ _ => trivial
    apply keeps_outcome _ fun _ _ => trivial
    rw [Workspace.onRecord, outcome_onPart]
    have record := leaves space.draft.object pending.field pending.value space.draft.record space.world
    exact congrArg (fun record => { space.draft with record }) record
  have notified (pending : Pending) (space : Workspace World) :
      (Draft.notify framework pending).Keeps (Law.fixing Workspace.draft) space :=
    Draft.keeps_notify (keeps_onPart_fixing fun _ => rfl) (keeps_onPart_fixing fun _ => rfl)
  unfold prepare
  apply keeps_get_bind
  apply keeps_bind (keeps_onPart_fixing fun _ => rfl)
  intro _ _ _
  apply keeps_bind (keeps_each fun pending _ space => keeps_tolerant (referenced pending space))
  exact fun _ _ _ => keeps_each fun pending _ space => keeps_tolerant (notified pending space)

theorem resolve_takes (leaves : framework.LeavesRecords)
    (distinct : (space.draft.pending.map Pending.property).Nodup)
    (done : (mapper.resolve framework).Gives space changed final) :
    ∃ writes, space.draft.record.Takes final.draft.record (mapper.unskipped space.draft) writes ∧
      changed = !writes.isEmpty := by
  by_cases empty : space.draft.pending = []
  · rw [Gives, resolve_of_nil framework empty] at done
    obtain ⟨rfl, rfl⟩ := EStateM.Result.ok.inj done
    exact ⟨[], ⟨List.nil_sublist _, by simp, by simp, rfl⟩, rfl⟩
  · obtain ⟨-, ready, prepared, written⟩ := resolve_parts empty done
    have same : ready.draft = { space.draft with pending := [] } :=
      (prepare_fixes_draft leaves).of_ok prepared
    have among : ((mapper.unskipped space.draft).map Pending.property).Nodup :=
      distinct.sublist (List.filter_sublist.map Pending.property)
    obtain ⟨writes, takes, told⟩ := Draft.writeAllChildKeys_takes among written
    rw [same] at takes
    exact ⟨writes, takes, told⟩

theorem waiting_of_resolve (done : (mapper.resolve framework).Gives space changed final) :
    final.waiting = [] := by
  by_cases empty : space.draft.pending = []
  · rw [Gives, resolve_of_nil framework empty] at done
    obtain ⟨-, rfl⟩ := EStateM.Result.ok.inj done
    exact empty
  · obtain ⟨complete, -⟩ := resolve_parts empty done
    rw [Gives, resolve_of_complete empty complete] at done
    exact resolvePending_fixes.of_ok done

end Mapper

/-! ## Calls on a draft in which nothing waits -/

/-- Whether a call gives values of fields to a draft. -/
def DraftCall.Populates : DraftCall → Prop
  | fillField _ _ _ => True
  | fillFields _ _ _ => True
  | _ => False

/-- The law of letting no relation wait where none did. -/
def Draft.idling : Law Draft where
  allows before after := before.pending = [] → after.pending = []
  reports _ _ := True
  refl _ idle := idle
  trans first second idle := second (first idle)
  carry _ _ := trivial

namespace Draft

variable {mapper : Mapper} {draft after : Draft} {call : DraftCall} {calls : List DraftCall}

theorem joinParent_pending {parent : Key} (joined : draft.joinParent parent = .ok after) :
    after.pending = draft.pending := by
  obtain ⟨key, -, rebased⟩ := bind_eq_ok_iff.mp joined
  obtain ⟨-, rfl⟩ := rebase_ok rebased
  rfl

theorem assignKey_pending {key : Key} (assigned : draft.assignKey key = .ok after) :
    after.pending = draft.pending := by
  unfold assignKey at assigned
  split at assigned
  case isTrue =>
    obtain rfl := Except.ok.inj assigned
    rfl
  split at assigned
  case isTrue => contradiction
  split at assigned
  case isTrue => contradiction
  split at assigned
  case isTrue => contradiction
  case isFalse =>
    obtain ⟨-, rfl⟩ := rekey_ok assigned
    rfl

/-- Without new values no call lets a relation wait. -/
theorem attempt_idles (idle : ¬ call.Populates) : (call.attempt mapper).Keeps idling draft := by
  cases call with
  | fillField => exact (idle trivial).elim
  | fillFields => exact (idle trivial).elim
  | placeInGroup registry =>
      have placed : placeInGroup.Keeps (idling.comap Prod.fst) (draft, registry) := by
        apply keeps_placeInGroup fun _ _ _ _ => trivial
        intro parent _ _
        cases joined : draft.joinParent parent with
        | ok after => exact (joinParent_pending joined).trans
        | error error => trivial
      apply keeps_bind
      · exact keeps_withLocal placed (fun _ idle => idle) fun _ _ => trivial
      · exact fun _ _ _ => keeps_pure ()
  | assignKey key =>
      apply keeps_update
      cases assigned : draft.assignKey key with
      | ok after => exact (assignKey_pending assigned).trans
      | error error => trivial
  | resolve framework around =>
      apply keeps_outcome _ fun _ _ => trivial
      intro empty
      have resolved : mapper.resolve framework ⟨draft, around⟩ = .ok false ⟨draft, around⟩ :=
        Mapper.resolve_of_nil framework empty
      have left : (DraftCall.resolve framework around).attempt mapper draft = .ok () draft := by
        have run : (mapper.resolve framework).withLocal around (fun around draft => ⟨draft, around⟩)
            (fun _ space => (space.surroundings, space.draft)) draft =
              .ok (false, around) draft := by
          rw [withLocal, resolved]
        exact bind_of_ok run
      rw [Attempt.outcome, left]
      exact empty

theorem moment_idles (idle : ∀ call ∈ calls, ¬ call.Populates) (empty : draft.pending = [])
    (count : Nat) : (draft.moment mapper calls count).pending = [] := by
  have kept : idling.allows (draft.moment mapper calls 0) (draft.moment mapper calls count) :=
    moment_allows (Nat.zero_le count) fun _ call _ _ found =>
      (attempt_idles (idle call (List.mem_of_getElem? found))).allows
  exact kept empty

end Draft

namespace Mapper

variable {World : Type} {mapper : Mapper} {framework : Framework World}
  {space final : Workspace World} {changed : Bool}

/-- **Resolving tells exactly of changes.** After a success the call has told of a change if and only
if the properties of the record are others than before, and what is new was written for a relation
that waited and is not skipped. From then on no relation waits until further values are given, so
that resolving again, in whatever surroundings, asks for nothing, does nothing and tells of no
change. -/
theorem resolve_detects (leaves : framework.LeavesRecords)
    (distinct : (space.draft.pending.map Pending.property).Nodup)
    (done : mapper.resolve framework space = .ok changed final) :
    space.draft.record.Detects final.draft.record (mapper.unskipped space.draft) changed ∧
      ∀ calls : List DraftCall, (∀ call ∈ calls, ¬ call.Populates) →
        ∀ (count : Nat) (Later : Type) (later : Framework Later) (around : Surroundings Later),
          let draft := final.draft.moment mapper calls count
          mapper.resolve later ⟨draft, around⟩ = .ok false ⟨draft, around⟩ := by
  constructor
  · obtain ⟨writes, takes, rfl⟩ := resolve_takes leaves distinct done
    exact takes.detects (distinct.sublist (List.filter_sublist.map Pending.property))
  · intro calls idle count Later later around draft
    exact resolve_of_nil later (Draft.moment_idles idle (waiting_of_resolve done) count)

/-- The key of the book is new in the record of the library. Afterwards nothing is left to do, even
for a framework that refuses to hear of insertions. -/
theorem resolve_detects_books :
    ∃ final, bookMapper.resolve flushingFramework ⟨libraryWithBooks, ⟨{}, none⟩⟩ = .ok true final ∧
      final.draft.record.properties ≠ [] ∧
      bookMapper.resolve refusingFramework ⟨final.draft, ⟨{}, none⟩⟩ =
        .ok false ⟨final.draft, ⟨{}, none⟩⟩ := by
  have leaves : flushingFramework.LeavesRecords := fun _ _ _ _ _ => rfl
  have distinct : (libraryWithBooks.pending.map Pending.property).Nodup := List.nodup_singleton _
  have done : bookMapper.resolve flushingFramework ⟨libraryWithBooks, ⟨{}, none⟩⟩ = .ok true
      ⟨{ libraryWithBooks with
          record := ⟨library, [⟨"books", .ofKeys [bookKey], true⟩]⟩, pending := [] },
        ⟨{ parents := [(book.id, library)] }, some bookKey⟩⟩ := rfl
  obtain ⟨detects, idle⟩ := resolve_detects leaves distinct done
  exact ⟨_, done, detects.differs.mp rfl, idle [] (by simp) 0 _ refusingFramework _⟩

end Mapper

end RecordMapping
