import RecordMapping.Proofs.Draft.NullRules
import RecordMapping.Proofs.Draft.Resaving

/-!
# Keys that are stored before relations are resolved

A new record gets the keys that related objects have already as soon as their relation is noted.
Resolving collects the keys once more, in another way: deleted objects are left out, and those
without a key are stored. Where all objects had their keys in time the two agree, so that resolving
finds the property as it is to be. Where some had none, what was stored at first are the keys of the
others, in the order in which resolving stores all of them (`Mapper.Anticipates`).
-/

namespace RecordMapping

open Attempt

/-- A relation field of which a new record stores at once what is known. -/
structure Mapper.StoresNow (mapper : Mapper) (field : Field) (relation : Relation) : Prop where
  bare : field.embedding = none
  unpacked : field.isPacked = false
  related : field.relation = some relation
  insertable : field.isInsertable = true
  written : mapper.skips relation = false
  notArray : relation.isArray = false

/-- The relation of a leaf as it waits to be resolved. -/
def Leaf.waiting (leaf : Leaf) (mapper : Mapper) (relation : Relation) : Pending where
  field := leaf.field
  relation
  property := mapper.propertyIn leaf.embedding leaf.field
  value := leaf.value
  position := if leaf.embedding.isNone then some leaf.position else none

/-- Whether the value of a field is stored in a draft, as one of its class or within an embedded
object. -/
def Mapper.StoresLeaf (mapper : Mapper) (knownKey : Reference → Option Key) (leaf : Leaf)
    (draft after : Draft) : Prop :=
  match leaf.embedding with
  | none => draft.schema.field leaf.position = .ok leaf.field ∧ leaf.field.isInKey = false ∧
      (mapper.fillField knownKey leaf.position leaf.value).Gives draft () after
  | some inner =>
      (mapper.storeField knownKey (some inner) leaf.position leaf.field leaf.value).Gives draft ()
        after

/-- Whether all objects of a value had a key in one world, and in some others have the same key and
are not deleted. -/
def Framework.StillKeys {World : Type} (framework : Framework World) (start : World)
    (among : World → Prop) (value : FieldValue) : Prop :=
  ∀ child ∈ value.referents, ∃ key, framework.knownKey start child = some key ∧
    ∀ world, among world →
      framework.knownKey world child = some key ∧ framework.isDeleted world child = false

/-! ## What is stored at once -/

namespace Draft

/-- The value that is stored of a relation whose objects have the known keys. -/
inductive Presents (knownKey : Reference → Option Key) (field : Field) (relation : Relation)
    (value : FieldValue) : Value → Prop
  | null (absent : value.bare = .null) (allowed : field.nullBan? = none) :
      Presents knownKey field relation value .null
  | single {child : Reference} (held : value.bare = .object child)
      (single : relation.isSingle = true) :
      Presents knownKey field relation value (((knownKey child).map Value.key).getD .null)
  | several {items : List FieldValue} (held : value.bare = .list items)
      (several : relation.isSingle = false) :
      Presents knownKey field relation value (.ofKeys (value.referents.filterMap knownKey))

variable {draft : Draft} {knownKey : Reference → Option Key} {field : Field} {relation : Relation}
  {value : FieldValue} {stored : Value}

theorem presentKey_eq {child : Reference} {known : Option Key}
    (found : draft.presentKey knownKey relation child = .ok known) : known = knownKey child := by
  unfold presentKey at found
  cases held : knownKey child with
  | none =>
      rw [held] at found
      exact (Except.ok.inj found).symm
  | some key =>
      simp only [held, bind_eq_ok_iff] at found
      obtain ⟨-, -, same⟩ := found
      exact (Except.ok.inj same).symm

theorem presentKeys_eq_filterMap {children : List Reference} {keys : List Key}
    (found : draft.presentKeys knownKey relation children = .ok keys) :
    keys = children.filterMap knownKey := by
  induction children generalizing keys with
  | nil => exact (Except.ok.inj found).symm
  | cons child rest ih =>
      simp only [presentKeys, bind_eq_ok_iff] at found
      obtain ⟨known, here, others, later, made⟩ := found
      obtain rfl := ih later
      obtain rfl : known.toList ++ rest.filterMap knownKey = keys := Except.ok.inj made
      rw [presentKey_eq here]
      cases held : knownKey child with
      | none => rw [List.filterMap_cons_none held]; rfl
      | some key => rw [List.filterMap_cons_some held]; rfl

/-- What is stored at once is the value for the known keys, and each child that has a key has it in
its place. -/
theorem presentValue_gives {className : String}
    (found : draft.presentValue knownKey className field relation value = .ok stored) :
    Presents knownKey field relation value stored ∧
      ∀ child ∈ value.referents, ∀ key, knownKey child = some key →
        draft.checkChild relation key = .ok () := by
  unfold presentValue at found
  split at found
  case h_1 absent =>
    obtain ⟨passed, made⟩ := check_bind_eq_ok_iff.mp found
    obtain rfl : .null = stored := Except.ok.inj made
    rw [FieldValue.referents, absent]
    exact ⟨.null absent (Field.nullBan?_of_refuseNull passed rfl), List.forall_mem_nil _⟩
  case h_2 child held =>
    split at found
    case isTrue single =>
      obtain ⟨known, here, made⟩ := bind_eq_ok_iff.mp found
      obtain rfl : (known.map Value.key).getD .null = stored := Except.ok.inj made
      have listed : draft.presentKeys knownKey relation [child] = .ok (known.toList ++ []) := by
        rw [presentKeys, here]
        rfl
      rw [FieldValue.referents_of_object held, presentKey_eq here]
      exact ⟨.single held single, presentKeys_passes_iff.mp ⟨_, listed⟩⟩
    case isFalse => contradiction
  case h_3 items held =>
    split at found
    case isTrue => contradiction
    case isFalse several =>
      obtain ⟨keys, listed, made⟩ := bind_eq_ok_iff.mp found
      obtain rfl : Value.ofKeys keys = stored := Except.ok.inj made
      rw [← FieldValue.referents_of_list held] at listed
      rw [presentKeys_eq_filterMap listed]
      exact ⟨.several held (eq_false_of_ne_true several), presentKeys_passes_iff.mp ⟨_, listed⟩⟩
  case h_4 => contradiction

end Draft

namespace Mapper

variable {mapper : Mapper} {knownKey : Reference → Option Key} {leaf : Leaf} {relation : Relation}
  {draft after : Draft}

theorem notedOf_of_storesNow (now : mapper.StoresNow leaf.field relation) :
    mapper.notedOf leaf = some (leaf.waiting mapper relation) := by
  simp only [notedOf, now.unpacked, now.related]
  rfl

theorem StoresLeaf.storeField (stores : mapper.StoresLeaf knownKey leaf draft after) :
    (mapper.storeField knownKey leaf.embedding leaf.position leaf.field leaf.value).Gives draft ()
      after := by
  unfold StoresLeaf at stores
  split at stores
  case h_1 outside =>
    obtain ⟨found, plain, done⟩ := stores
    rw [Gives, fillField_of_not_inKey mapper knownKey leaf.value found plain] at done
    rw [outside]
    exact done
  case h_2 inner inside =>
    rw [inside]
    exact stores

/-- The relation is noted, and what is known of it is put. -/
theorem storeField_of_storesNow (now : mapper.StoresNow leaf.field relation)
    (inserts : draft.operation = .insert)
    (stores : mapper.StoresLeaf knownKey leaf draft after) :
    ∃ stored, draft.presentValue knownKey (draft.classNameIn leaf.embedding) leaf.field relation
        leaf.value = .ok stored ∧
      after = (draft.noting (some (leaf.waiting mapper relation))).put
        (mapper.propertyIn leaf.embedding leaf.field) leaf.field.isIndexed stored := by
  have written : leaf.field.isWrittenBy draft.operation = true := by
    rw [inserts]
    exact now.insertable
  have atOnce : mapper.storesAtOnce draft.operation relation = true := by
    rw [storesAtOnce, inserts, now.written, now.notArray]
    rfl
  have done := stores.storeField
  rw [Gives, storeField_eq_each, Field.leaves_of_bare now.bare, if_pos written,
    each_singleton] at done
  obtain ⟨_, put, same, given, rfl⟩ := storeReached_gives done
  obtain rfl : leaf = _ := Except.ok.inj same
  simp only [putOf, now.unpacked, now.related, atOnce, Bool.false_eq_true, ↓reduceIte] at given
  obtain ⟨stored, presented, made⟩ := bind_eq_ok_iff.mp given
  obtain rfl : some _ = put := Except.ok.inj made
  rw [notedOf_of_storesNow now]
  exact ⟨stored, presented, rfl⟩

end Mapper

/-! ## What is computed later -/

namespace Draft

variable {World : Type} {framework : Framework World} {start : World} {among : World → Prop}
  {later : Draft} {around : Surroundings World} {relation : Relation} {pending : Pending}
  {stored : Value}

theorem relatedKeys_of_known {knownKey : Reference → Option Key} {children : List Reference}
    (known : ∀ child ∈ children, ∃ key, knownKey child = some key ∧
      framework.knownKey around.world child = some key ∧
      framework.isDeleted around.world child = false ∧ later.checkChild relation key = .ok ()) :
    relatedKeys framework later relation children around =
      .ok (children.filterMap knownKey) around := by
  induction children with
  | nil => rfl
  | cons child rest ih =>
      obtain ⟨⟨key, held, found, there, placed⟩, others⟩ := List.forall_mem_cons.mp known
      have keyed : relatedKey framework later relation child around = .ok (child, key) around :=
        relatedKey_of_known found (checkChild_ok placed)
      rw [relatedKeys_cons_of_ok there keyed, List.filterMap_cons_some held]
      exact bind_of_ok (ih others)

/-- **The two computations agree** where all objects have their keys. -/
theorem childKeys_of_presents
    (presents : Presents (framework.knownKey start) pending.field pending.relation pending.value
      stored)
    (still : framework.StillKeys start among pending.value)
    (placed : ∀ child ∈ pending.value.referents, ∀ key,
      framework.knownKey start child = some key → later.checkChild pending.relation key = .ok ())
    (here : among around.world) :
    childKeys framework later pending around = .ok stored around := by
  have known : ∀ child ∈ pending.value.referents, ∃ key,
      framework.knownKey start child = some key ∧
        framework.knownKey around.world child = some key ∧
        framework.isDeleted around.world child = false ∧
        later.checkChild pending.relation key = .ok () := by
    intro child refers
    obtain ⟨key, held, keeps⟩ := still child refers
    obtain ⟨found, there⟩ := keeps around.world here
    exact ⟨key, held, found, there, placed child refers key held⟩
  unfold childKeys
  cases presents with
  | null absent allowed =>
      simp only [absent]
      rw [Field.refuseNull, allowed]
      rfl
  | @single child held single =>
      simp only [held, single, ↓reduceIte]
      rw [FieldValue.referents_of_object held] at known
      obtain ⟨key, first, found, there, fits⟩ := known child (List.mem_singleton_self child)
      rw [first]
      exact relatedValue_of_known there found (checkChild_ok fits)
  | @several items held several =>
      simp only [held, several, Bool.false_eq_true, ↓reduceIte]
      rw [← FieldValue.referents_of_list held]
      exact bind_of_ok (relatedKeys_of_known known)

end Draft

/-! ## The pass -/

/-- What was stored of a relation before the pass over the relations of a draft, as far as that pass
is concerned. -/
structure Mapper.Anticipates {World : Type} (mapper : Mapper) (framework : Framework World)
    (start : World) (leaf : Leaf) (relation : Relation) (draft : Draft) (stored : Value)
    (after : Draft) : Prop where
  /-- One property was put, and the relation waits. -/
  filled : after = { draft with
    record := draft.record.put (mapper.propertyIn leaf.embedding leaf.field) stored
      leaf.field.isIndexed
    pending := [leaf.waiting mapper relation] }
  held : after.record.get? (mapper.propertyIn leaf.embedding leaf.field) = some stored
  /-- As long as the objects keep their keys, the pass computes the same value for the record's key. -/
  computes : ∀ (among : World → Prop) (later : Draft) (around : Surroundings World),
    framework.StillKeys start among leaf.value → among around.world → later.key = draft.key →
      Draft.childKeys framework later (leaf.waiting mapper relation) around = .ok stored around
  /-- So it changes nothing. -/
  rests : ∀ (among : World → Prop) (later : Draft) (around : Surroundings World)
      (registry : ParentRegistry),
    framework.StillKeys start among leaf.value → among around.world → later.key = draft.key →
      later.pending = after.pending →
      later.record.get? (mapper.propertyIn leaf.embedding leaf.field) = some stored →
      later.Undisturbed framework among (leaf.waiting mapper relation) →
      mapper.registerFields later (framework.fieldValue around.world later.object)
        around.registry = .ok () registry →
      ∃ left, mapper.resolve framework ⟨later, around⟩ = .ok false left ∧
        left.draft = { later with pending := [] }
  /-- Of several objects some may have had no key. If those that had one are seen with it by the pass,
  the property holds the keys that the pass sees, and what was stored before are those of them whose
  objects had one. -/
  several : ∀ (items : List FieldValue) (later : Draft) (around : Surroundings World)
      (changed : Bool) (final : Workspace World),
    leaf.value.bare = .list items → later.pending = after.pending →
      mapper.resolve framework ⟨later, around⟩ = .ok changed final →
      (∀ sighting ∈ mapper.sightings framework ⟨later, around⟩, ∀ key,
        framework.knownKey start sighting.object = some key → sighting.key = some key) →
      let seen := mapper.sightings framework ⟨later, around⟩
      seen.map Sighting.object = leaf.value.referents ∧
        final.draft.record.get? (mapper.propertyIn leaf.embedding leaf.field) =
          some (.ofKeys (seen.filterMap Sighting.key)) ∧
        stored = .ofKeys ((seen.filter fun sighting =>
          (framework.knownKey start sighting.object).isSome).filterMap Sighting.key)

namespace Mapper

variable {World : Type} {mapper : Mapper} {framework : Framework World} {start : World}
  {leaf : Leaf} {relation : Relation} {draft after : Draft}

/-- A pass over one relation sees its objects, and stores what it sees. -/
theorem resolve_of_singleton {pending : Pending} {items : List FieldValue}
    {space final : Workspace World} {changed : Bool} (waits : space.draft.pending = [pending])
    (written : mapper.skips pending.relation = false) (listed : pending.value.bare = .list items)
    (done : (mapper.resolve framework).Gives space changed final) :
    (mapper.sightings framework space).map Sighting.object = pending.value.referents ∧
      final.draft.record.get? pending.property =
        some (.ofKeys ((mapper.sightings framework space).filterMap Sighting.key)) := by
  have unskipped : mapper.unskipped space.draft = [pending] := by
    simp [Mapper.unskipped, waits, written]
  have present : space.draft.pending ≠ [] := by
    rw [waits]
    exact List.cons_ne_nil _ _
  obtain ⟨-, ready, prepared, stores⟩ := resolve_parts present done
  rw [unskipped, Draft.writeAllChildKeys] at stores
  obtain ⟨_, middle, stored, rest⟩ := stores.bind
  obtain ⟨_, _, nothing, made⟩ := rest.bind
  obtain ⟨-, rfl⟩ := nothing.pure
  obtain ⟨-, rfl⟩ := made.pure
  obtain ⟨value, collected, held⟩ := Draft.writeChildKeys_stores stored
  have seen : mapper.sightings framework space =
      Draft.sightings framework ready.draft pending.relation pending.value.referents
        ready.surroundings := by
    rw [sightings, prepared, unskipped]
    simp only [Draft.allSightings, collected, List.append_nil]
  rw [held, seen]
  have gathered : (Draft.childKeys framework ready.draft pending).Gives ready.surroundings value
      final.surroundings := collected
  unfold Draft.childKeys at gathered
  simp only [listed] at gathered
  split at gathered
  case isTrue => exact (not_gives_throw gathered).elim
  case isFalse =>
    obtain ⟨keys, _, related, made⟩ := gathered.bind
    obtain ⟨rfl, -⟩ := made.pure
    rw [← FieldValue.referents_of_list listed] at related
    obtain ⟨objects, same⟩ := Draft.sightings_of_relatedKeys related
    exact ⟨objects, by rw [same]⟩

theorem filterMap_of_seen {knownKey : Reference → Option Key} {seen : List Sighting}
    (steady : ∀ sighting ∈ seen, ∀ key, knownKey sighting.object = some key →
      sighting.key = some key) :
    (seen.map Sighting.object).filterMap knownKey =
      (seen.filter fun sighting => (knownKey sighting.object).isSome).filterMap Sighting.key := by
  rw [List.filterMap_map, List.filterMap_filter]
  apply List.filterMap_congr
  intro sighting member
  cases known : knownKey sighting.object with
  | none => simp [known]
  | some key => simp [known, steady sighting member key known]

/-- A pass over one relation finds what was stored at once, if all objects keep their keys. -/
theorem finds_of_presents {among : World → Prop} {later : Draft} {pending : Pending} {stored : Value}
    (waits : later.pending = [pending])
    (presents : Draft.Presents (framework.knownKey start) pending.field pending.relation
      pending.value stored)
    (still : framework.StillKeys start among pending.value)
    (placed : ∀ child ∈ pending.value.referents, ∀ key,
      framework.knownKey start child = some key → later.checkChild pending.relation key = .ok ())
    (held : later.record.get? pending.property = some stored) :
    mapper.Finds framework later among := by
  have only {other : Pending} (member : other ∈ later.pending) : other = pending := by
    rw [waits] at member
    exact List.mem_singleton.mp member
  constructor
  case passes =>
    intro other member _ _ world there
    obtain rfl := only member
    rw [Draft.checkChildren_ok_iff]
    intro child refers key known
    obtain ⟨first, found, keeps⟩ := still child refers
    obtain rfl := Option.some.inj ((keeps world there).1.symm.trans known)
    exact placed child refers first found
  case stored =>
    intro other member
    obtain rfl := only (List.mem_filter.mp member).1
    exact ⟨stored, held, fun around there => Draft.childKeys_of_presents presents still placed there⟩

/-- **What is stored at once is what the pass stores**, if the objects of the relation have their
keys, and otherwise the part of it that was known. -/
theorem stores_anticipating (now : mapper.StoresNow leaf.field relation)
    (inserts : draft.operation = .insert) (complete : draft.key.isComplete = true)
    (idle : draft.pending = [])
    (stores : mapper.StoresLeaf (framework.knownKey start) leaf draft after) :
    ∃ stored, mapper.Anticipates framework start leaf relation draft stored after := by
  obtain ⟨stored, presented, rfl⟩ := storeField_of_storesNow now inserts stores
  obtain ⟨presents, placed⟩ := Draft.presentValue_gives presented
  have placedLater {later : Draft} (sameKey : later.key = draft.key) :
      ∀ child ∈ leaf.value.referents, ∀ key, framework.knownKey start child = some key →
        later.checkChild relation key = .ok () := by
    rw [Draft.checkChild_eq sameKey]
    exact placed
  have filled : (draft.noting (some (leaf.waiting mapper relation))).put
      (mapper.propertyIn leaf.embedding leaf.field) leaf.field.isIndexed stored = { draft with
        record := draft.record.put (mapper.propertyIn leaf.embedding leaf.field) stored
          leaf.field.isIndexed
        pending := [leaf.waiting mapper relation] } := by
    rw [Draft.noting, idle]
    rfl
  refine ⟨stored, filled, Record.get?_put _ _ _ _, ?computes, ?rests, ?several⟩
  case computes =>
    intro among later around still here sameKey
    exact Draft.childKeys_of_presents presents still (placedLater sameKey) here
  case rests =>
    intro among later around registry still here sameKey samePending held undisturbed registering
    rw [filled] at samePending
    have waits : later.pending ≠ [] := by
      rw [samePending]
      exact List.cons_ne_nil _ _
    have quiet : ∀ pending ∈ later.pending, later.Undisturbed framework among pending := by
      rw [samePending]
      exact List.forall_mem_singleton.mpr undisturbed
    have finds : mapper.Finds framework later among :=
      finds_of_presents samePending presents still (placedLater sameKey) held
    rw [resolve_of_complete waits (by rw [sameKey, complete])]
    obtain ⟨left, done, rests⟩ := resolvePending_rests finds quiet here registering
    exact ⟨left, done, rests.draft⟩
  case several =>
    intro items later around changed final listed samePending done steady
    rw [filled] at samePending
    obtain ⟨objects, stores⟩ := resolve_of_singleton samePending now.written listed done
    refine ⟨objects, stores, ?_⟩
    rw [← filterMap_of_seen steady, objects]
    cases presents with
    | null absent =>
        rw [absent] at listed
        contradiction
    | single held =>
        rw [held] at listed
        contradiction
    | several => rfl

end Mapper

/-! ## Two books of a library, as an example -/

def secondBook : Reference :=
  ⟨⟨3⟩, "Book"⟩

def secondKey : Key :=
  ⟨[⟨"Library", .name "central"⟩], "Book", some (.id 8)⟩

/-- A framework with two books, of which the second has no key until it is flushed. -/
def halfKeyedFramework : Framework (Option Key) :=
  { flushingFramework with
    fieldValue := fun _ _ _ => .ok (.list [.object secondBook, .object book])
    knownKey := fun world object =>
      if object = book then some bookKey else if object = secondBook then world else none
    flush := fun _ => modify fun around => { around with world := some secondKey } }

/-- A new library with its key. -/
def keyedLibrary : Draft :=
  { libraryWithBooks with pending := [] }

def bothBooks : Leaf :=
  ⟨none, 1, booksField, .list [.object secondBook, .object book]⟩

/-- The library with its books noted, and some of their keys. -/
def libraryHolding (keys : List Key) : Draft :=
  { keyedLibrary with
    record := ⟨library, [⟨"books", .ofKeys keys, true⟩]⟩
    pending := [bothBooks.waiting bookMapper (.collection "Book")] }

/-- At first the property holds the key of the one book that has one; resolving adds the other. If
both have their keys in time, resolving finds nothing to do. -/
theorem Mapper.stores_anticipating_books :
    (bookMapper.StoresLeaf (halfKeyedFramework.knownKey none) bothBooks keyedLibrary
        (libraryHolding [bookKey]) ∧
      ∃ final, bookMapper.resolve halfKeyedFramework ⟨libraryHolding [bookKey], ⟨{}, none⟩⟩ =
          .ok true final ∧
        final.draft.record.get? "books" = some (.ofKeys [secondKey, bookKey])) ∧
    bookMapper.StoresLeaf (halfKeyedFramework.knownKey (some secondKey)) bothBooks keyedLibrary
        (libraryHolding [secondKey, bookKey]) ∧
      ∃ left, bookMapper.resolve halfKeyedFramework
          ⟨libraryHolding [secondKey, bookKey], ⟨{}, some secondKey⟩⟩ = .ok false left ∧
        left.draft = { libraryHolding [secondKey, bookKey] with pending := [] } := by
  have now : bookMapper.StoresNow booksField (.collection "Book") := ⟨rfl, rfl, rfl, rfl, rfl, rfl⟩
  constructor
  · have stores : bookMapper.StoresLeaf (halfKeyedFramework.knownKey none) bothBooks keyedLibrary
        (libraryHolding [bookKey]) := ⟨rfl, rfl, rfl⟩
    obtain ⟨stored, anticipates⟩ := stores_anticipating now rfl rfl rfl stores
    have steady : ∀ sighting ∈ [Sighting.mk (.collection "Book") secondBook (some secondKey),
        Sighting.mk (.collection "Book") book (some bookKey)], ∀ key,
          halfKeyedFramework.knownKey none sighting.object = some key →
            sighting.key = some key := by
      intro sighting seen key known
      rcases List.mem_pair.mp seen with rfl | rfl
      · contradiction
      · exact known
    obtain ⟨-, held, -⟩ := anticipates.several _ _ ⟨{}, none⟩ true _ rfl rfl rfl steady
    exact ⟨stores, _, rfl, held⟩
  · have stores : bookMapper.StoresLeaf (halfKeyedFramework.knownKey (some secondKey)) bothBooks
        keyedLibrary (libraryHolding [secondKey, bookKey]) := ⟨rfl, rfl, rfl⟩
    obtain ⟨stored, anticipates⟩ := stores_anticipating now rfl rfl rfl stores
    have still : halfKeyedFramework.StillKeys (some secondKey) (· = some secondKey)
        bothBooks.value := by
      intro child refers
      rcases List.mem_pair.mp refers with rfl | rfl
      · exact ⟨secondKey, rfl, fun _ there => there ▸ ⟨rfl, rfl⟩⟩
      · exact ⟨bookKey, rfl, fun _ there => there ▸ ⟨rfl, rfl⟩⟩
    have undisturbed : (libraryHolding [secondKey, bookKey]).Undisturbed halfKeyedFramework
        (· = some secondKey) (bothBooks.waiting bookMapper (.collection "Book")) :=
      ⟨fun _ world there => ⟨world, rfl, there⟩, fun _ world there => ⟨world, rfl, there⟩⟩
    exact ⟨stores, anticipates.rests _ _ _ _ still rfl rfl rfl anticipates.held undisturbed rfl⟩

end RecordMapping
