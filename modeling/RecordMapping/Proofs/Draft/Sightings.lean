import RecordMapping.Proofs.Draft.Likeness
import RecordMapping.Proofs.Draft.Registration

/-!
# What a pass sees of related objects

When the keys of a relation are written, each of its objects is seen at its turn: it is deleted, or
it has a key, perhaps because it was just stored. The `sightings` of a pass are read off the run
itself. They decide the stored value: wherever objects are as a pass saw them, the same relation is
stored as the same value, and no object has to be stored for it (`Draft.childKeys_replay`).
-/

namespace RecordMapping

open Attempt

/-- What was seen of an object of a relation when its turn came: its key, or none if it was
deleted. -/
structure Sighting where
  relation : Relation
  object : Reference
  key : Option Key

/-- Whether an object is as it was seen. -/
def Sighting.Holds {World : Type} (framework : Framework World) (world : World)
    (sighting : Sighting) : Prop :=
  match sighting.key with
  | none => framework.isDeleted world sighting.object = true
  | some key => framework.isDeleted world sighting.object = false ∧
      framework.knownKey world sighting.object = some key

namespace Draft

section

variable {World : Type} (framework : Framework World) (draft : Draft)

/-- What is seen of the objects of a relation, one after the other. -/
def sightings (relation : Relation) : List Reference → Surroundings World → List Sighting
  | [], _ => []
  | child :: rest, around =>
      if framework.isDeleted around.world child then
        ⟨relation, child, none⟩ :: sightings relation rest around
      else
        match relatedKey framework draft relation child around with
        | .ok (_, key) next => ⟨relation, child, some key⟩ :: sightings relation rest next
        | .error _ _ => []

/-- What is seen of the objects of several relations whose keys are written in order. -/
def allSightings : List Pending → Surroundings World → List Sighting
  | [], _ => []
  | pending :: rest, around =>
      sightings framework draft pending.relation pending.value.referents around ++
        match childKeys framework draft pending around with
        | .ok _ next => allSightings rest next
        | .error _ _ => []

end

variable {World Other : Type} {framework : Framework World} {other : Framework Other}
  {draft twin : Draft} {relation : Relation} {child object : Reference} {key : Key}
  {around next : Surroundings World} {later : Surroundings Other} {pending : Pending}

/-! ## One relation -/

theorem relatedKey_of_known (known : framework.knownKey around.world child = some key)
    (below : relation.owned → key.parent? = some draft.key) :
    relatedKey framework draft relation child around = .ok (child, key) around := by
  unfold relatedKey
  rw [get_bind, known]
  simp only [checkChild_of below]
  rfl

theorem relatedKeys_cons_of_ok {rest : List Reference}
    (there : framework.isDeleted around.world child = false)
    (keyed : relatedKey framework draft relation child around = .ok (object, key) next) :
    relatedKeys framework draft relation (child :: rest) around =
      (do return key :: (← relatedKeys framework draft relation rest) :
        Attempt (Surroundings World) (List Key)) next := by
  rw [relatedKeys, get_bind, if_neg (by rw [there]; exact Bool.false_ne_true), bind_of_ok keyed]

/-- The field of the owner stays as it is when its object has a key already. -/
theorem relatedValue_of_known (there : framework.isDeleted around.world child = false)
    (known : framework.knownKey around.world child = some key)
    (below : pending.relation.owned → key.parent? = some draft.key) :
    relatedValue framework draft pending child around = .ok (.key key) around := by
  rw [relatedValue, get_bind, if_neg (by rw [there]; exact Bool.false_ne_true),
    bind_of_ok (relatedKey_of_known known below)]
  simp only [ne_eq, not_true_eq_false, ↓reduceIte]
  rfl

theorem relatedKeys_replay {children : List Reference} {keys : List Key}
    (done : (relatedKeys framework draft relation children).Gives around keys next)
    (key : twin.key = draft.key)
    (sees : ∀ sighting ∈ sightings framework draft relation children around,
      sighting.Holds other later.world) :
    relatedKeys other twin relation children later = .ok keys later := by
  induction children generalizing around keys with
  | nil =>
      obtain ⟨rfl, -⟩ := done.pure
      rfl
  | cons child rest ih =>
      unfold relatedKeys at done
      unfold sightings at sees
      replace done := done.get_bind
      by_cases gone : framework.isDeleted around.world child = true
      · simp only [gone, ↓reduceIte] at done sees
        obtain ⟨here, others⟩ := List.forall_mem_cons.mp sees
        have goneToo : other.isDeleted later.world child = true := here
        rw [relatedKeys, get_bind]
        simp only [goneToo, ↓reduceIte]
        exact ih done others
      · simp only [gone] at done sees
        obtain ⟨⟨object, found⟩, middle, keyed, rest⟩ := done.bind
        obtain ⟨others, last, collected, made⟩ := rest.bind
        obtain ⟨rfl, rfl⟩ := made.pure
        rw [keyed] at sees
        obtain ⟨⟨there, known⟩, seesOthers⟩ := List.forall_mem_cons.mp sees
        have below := (relatedKey_gives keyed).2
        rw [← key] at below
        have keyedToo : relatedKey other twin relation child later = .ok (child, found) later :=
          relatedKey_of_known known below
        rw [relatedKeys_cons_of_ok there keyedToo]
        exact bind_of_ok (ih collected seesOthers)

/-- Every object of a relation is seen in its turn, and the keys that are seen are the ones that are
collected. -/
theorem sightings_of_relatedKeys {children : List Reference} {keys : List Key}
    (done : (relatedKeys framework draft relation children).Gives around keys next) :
    (sightings framework draft relation children around).map Sighting.object = children ∧
      (sightings framework draft relation children around).filterMap Sighting.key = keys := by
  induction children generalizing around keys next with
  | nil =>
      obtain ⟨rfl, -⟩ := done.pure
      exact ⟨rfl, rfl⟩
  | cons child rest ih =>
      unfold relatedKeys at done
      unfold sightings
      replace done := done.get_bind
      split at done
      case isTrue gone =>
        obtain ⟨objects, collected⟩ := ih done
        rw [if_pos gone]
        exact ⟨congrArg (child :: ·) objects, collected⟩
      case isFalse there =>
        obtain ⟨⟨object, found⟩, middle, keyed, remaining⟩ := done.bind
        obtain ⟨others, last, collected, made⟩ := remaining.bind
        obtain ⟨rfl, -⟩ := made.pure
        obtain ⟨objects, same⟩ := ih collected
        rw [if_neg there, keyed]
        exact ⟨congrArg (child :: ·) objects, congrArg (found :: ·) same⟩

theorem relatedValue_replay {stored : Value}
    (done : (relatedValue framework draft pending child).Gives around stored next)
    (key : twin.key = draft.key)
    (sees : ∀ sighting ∈ sightings framework draft pending.relation [child] around,
      sighting.Holds other later.world) :
    relatedValue other twin pending child later = .ok stored later := by
  unfold relatedValue at done
  unfold sightings at sees
  replace done := done.get_bind
  by_cases gone : framework.isDeleted around.world child = true
  · simp only [gone, ↓reduceIte] at done sees
    obtain ⟨rfl, -⟩ := done.pure
    have goneToo : other.isDeleted later.world child = true := sees _ (List.mem_singleton_self _)
    rw [relatedValue, get_bind, if_pos goneToo]
    rfl
  · simp only [gone] at done sees
    obtain ⟨⟨object, found⟩, middle, keyed, rest⟩ := done.bind
    rw [keyed] at sees
    obtain ⟨⟨there, known⟩, -⟩ := List.forall_mem_cons.mp sees
    have below := (relatedKey_gives keyed).2
    rw [← key] at below
    -- Whether the field of the owner is set to another object or not, the key is stored.
    have value : stored = .key found := by
      simp only at rest
      split at rest
      · split at rest
        · obtain ⟨_, _, -, made⟩ := rest.bind
          exact made.pure.1
        · exact rest.pure.1
      · exact rest.pure.1
    rw [value]
    exact relatedValue_of_known there known below

/-- **What was seen decides what is stored.** Where objects are as they were seen, the value of a
relation is stored as it was, and nothing has to be asked for. -/
theorem childKeys_replay {stored : Value}
    (done : (childKeys framework draft pending).Gives around stored next)
    (key : twin.key = draft.key) (schema : twin.schema = draft.schema)
    (sees : ∀ sighting ∈ sightings framework draft pending.relation pending.value.referents around,
      sighting.Holds other later.world) :
    childKeys other twin pending later = .ok stored later := by
  unfold childKeys at done ⊢
  rw [schema]
  cases found : pending.value.bare with
  | null =>
      simp only [found] at done ⊢
      obtain ⟨_, _, refused, made⟩ := done.bind
      obtain ⟨passed, rfl⟩ := refused.lift
      obtain ⟨rfl, -⟩ := made.pure
      rw [passed]
      rfl
  | object child =>
      rw [FieldValue.referents_of_object found] at sees
      simp only [found] at done ⊢
      split at done
      case isTrue single =>
        rw [if_pos single]
        exact relatedValue_replay done key sees
      case isFalse => exact (not_gives_throw done).elim
  | list items =>
      rw [FieldValue.referents_of_list found] at sees
      simp only [found] at done ⊢
      split at done
      case isTrue => exact (not_gives_throw done).elim
      case isFalse several =>
        obtain ⟨keys, _, collected, made⟩ := done.bind
        obtain ⟨rfl, -⟩ := made.pure
        rw [if_neg several]
        exact bind_of_ok (relatedKeys_replay collected key sees)
  | _ =>
      simp only [found] at done
      exact (not_gives_throw done).elim

/-! ## Several relations -/

theorem relatedKeys_congr (key : twin.key = draft.key) (children : List Reference) :
    relatedKeys framework twin relation children = relatedKeys framework draft relation children := by
  induction children with
  | nil => rfl
  | cons child rest ih => simp only [relatedKeys, relatedKey, checkChild_eq key, ih]

theorem sightings_congr (key : twin.key = draft.key) (children : List Reference) :
    sightings framework twin relation children = sightings framework draft relation children := by
  induction children with
  | nil => rfl
  | cons child rest ih =>
      funext around
      simp only [sightings, relatedKey, checkChild_eq key, ih]

theorem childKeys_congr (key : twin.key = draft.key) (schema : twin.schema = draft.schema)
    (object : twin.object = draft.object) :
    childKeys framework twin = childKeys framework draft := by
  funext pending
  simp only [childKeys, relatedValue, relatedKey, checkChild_eq key, schema, object,
    relatedKeys_congr key]

theorem allSightings_congr (key : twin.key = draft.key) (schema : twin.schema = draft.schema)
    (object : twin.object = draft.object) (noted : List Pending) :
    allSightings framework twin noted = allSightings framework draft noted := by
  induction noted with
  | nil => rfl
  | cons pending rest ih =>
      funext around
      simp only [allSightings, sightings_congr key, childKeys_congr key schema object, ih]

/-- A key that was used in a relation that owns its objects lies right below the record's. -/
theorem sightings_below {children : List Reference} {sighting : Sighting}
    (seen : sighting ∈ sightings framework draft relation children around)
    (owned : sighting.relation.owned = true) (used : sighting.key = some key) :
    key.parent? = some draft.key := by
  induction children generalizing around with
  | nil => exact (List.not_mem_nil seen).elim
  | cons child rest ih =>
      unfold sightings at seen
      split at seen
      · rcases List.mem_cons.mp seen with rfl | later
        · contradiction
        · exact ih later
      · split at seen
        case h_1 object found middle keyed =>
          rcases List.mem_cons.mp seen with rfl | later
          · obtain rfl := Option.some.inj used
            exact (relatedKey_gives keyed).2 owned
          · exact ih later
        case h_2 => exact (List.not_mem_nil seen).elim

theorem allSightings_below {noted : List Pending} {sighting : Sighting}
    (seen : sighting ∈ allSightings framework draft noted around)
    (owned : sighting.relation.owned = true) (used : sighting.key = some key) :
    key.parent? = some draft.key := by
  induction noted generalizing around with
  | nil => exact (List.not_mem_nil seen).elim
  | cons pending rest ih =>
      unfold allSightings at seen
      rcases List.mem_append.mp seen with here | later
      · exact sightings_below here owned used
      · split at later
        · exact ih later
        · exact (List.not_mem_nil later).elim

variable {space final : Workspace World} {changed : Bool}

theorem writeChildKeys_stores
    (done : (writeChildKeys framework pending).Gives space changed final) :
    ∃ stored, childKeys framework space.draft pending space.surroundings =
        .ok stored final.surroundings ∧
      final.draft.record.get? pending.property = some stored := by
  unfold writeChildKeys at done
  replace done := done.get_bind
  obtain ⟨stored, written, collected, rest⟩ := done.bind
  obtain ⟨around, collectedAround, rfl⟩ := collected.onPart
  refine ⟨stored, ?_⟩
  split at rest
  case isTrue unchanged =>
    obtain ⟨-, rfl⟩ := rest.pure
    refine ⟨collectedAround, ?_⟩
    change space.draft.record.get? pending.property = some stored
    cases held : space.draft.record.get? pending.property with
    | none =>
        rw [held] at unchanged
        contradiction
    | some value =>
        rw [held] at unchanged
        rw [(childKeys_gives collectedAround).eq_of_same unchanged]
  case isFalse =>
    obtain ⟨_, _, put, made⟩ := rest.bind
    obtain ⟨-, rfl⟩ := made.pure
    obtain ⟨-, rfl⟩ := EStateM.Result.ok.inj put
    exact ⟨collectedAround, Record.get?_put _ _ _ _⟩

/-- **Every relation keeps the value that it was given**, and what was seen for it is among what was
seen for all. -/
theorem writeAllChildKeys_stores {noted : List Pending}
    (distinct : (noted.map Pending.property).Nodup)
    (done : (writeAllChildKeys framework noted).Gives space changed final)
    (member : pending ∈ noted) :
    ∃ start stored finish, childKeys framework space.draft pending start = .ok stored finish ∧
      (∀ sighting ∈ sightings framework space.draft pending.relation pending.value.referents start,
        sighting ∈ allSightings framework space.draft noted space.surroundings) ∧
      final.draft.record.get? pending.property = some stored := by
  induction noted generalizing space changed with
  | nil => contradiction
  | cons first rest ih =>
      obtain ⟨fresh, distinctRest⟩ := List.nodup_cons.mp distinct
      unfold writeAllChildKeys at done
      obtain ⟨_, middle, written, remaining⟩ := done.bind
      obtain ⟨_, last, writtenRest, made⟩ := remaining.bind
      obtain ⟨-, rfl⟩ := made.pure
      obtain ⟨stored, collected, held⟩ := writeChildKeys_stores written
      rcases List.mem_cons.mp member with rfl | later
      · refine ⟨space.surroundings, stored, middle.surroundings, collected, ?_, ?_⟩
        · exact fun sighting seen => List.mem_append_left _ seen
        · rw [(writeAllChildKeys_gives distinctRest writtenRest).2 pending.property fresh]
          exact held
      · obtain ⟨-, continues⟩ := writeChildKeys_keeps.of_ok written
        obtain ⟨start, value, finish, collectedThen, among, heldThen⟩ :=
          ih distinctRest writtenRest later
        rw [childKeys_congr continues.key continues.schema continues.object] at collectedThen
        rw [sightings_congr continues.key,
          allSightings_congr continues.key continues.schema continues.object] at among
        refine ⟨start, value, finish, collectedThen, fun sighting seen => ?_, heldThen⟩
        rw [allSightings, collected]
        exact List.mem_append_right _ (among sighting seen)

/-! ## Nothing to write -/

theorem writeChildKeys_idle {stored : Value}
    (collected : childKeys framework space.draft pending space.surroundings =
      .ok stored space.surroundings)
    (held : space.draft.record.get? pending.property = some stored) :
    writeChildKeys framework pending space = .ok false space := by
  have same : (some stored == some stored) = true := Value.same_self stored
  unfold writeChildKeys
  rw [get_bind]
  apply (bind_of_ok (onPart_of_ok collected)).trans
  rw [if_pos (by rw [held]; exact same)]
  rfl

/-- A relation to one object whose key the record holds asks for nothing and changes nothing. -/
theorem writeChildKeys_of_known (one : pending.relation.isSingle = true)
    (refers : pending.value.bare = .object object)
    (held : space.draft.record.get? pending.property = some (.key key))
    (there : framework.isDeleted space.world object = false)
    (known : framework.knownKey space.world object = some key)
    (below : pending.relation.owned → key.parent? = some space.draft.key) :
    writeChildKeys framework pending space = .ok false space := by
  refine writeChildKeys_idle ?_ held
  unfold childKeys
  simp only [refers, one, ↓reduceIte]
  exact relatedValue_of_known there known below

theorem writeAllChildKeys_idle {noted : List Pending}
    (idle : ∀ pending ∈ noted, ∃ stored,
      childKeys framework space.draft pending space.surroundings = .ok stored space.surroundings ∧
        space.draft.record.get? pending.property = some stored) :
    writeAllChildKeys framework noted space = .ok false space := by
  induction noted with
  | nil => rfl
  | cons pending rest ih =>
      obtain ⟨⟨stored, collected, held⟩, others⟩ := List.forall_mem_cons.mp idle
      rw [writeAllChildKeys, bind_of_ok (writeChildKeys_idle collected held),
        bind_of_ok (ih others)]
      rfl

end Draft

end RecordMapping
