import RecordMapping.Proofs.Draft.EagerKeys
import RecordMapping.Proofs.Draft.KeyParts
import RecordMapping.Proofs.Draft.LostRelations

/-!
# Children before the key

A new record may be given its children before its key: the relation waits, and the keys of children
that have none yet are stored once the record has its own. A child that has a key already does not
wait. Its key is compared with the record's at once, unless the children are held in an array, and
below a key without an identifier there is nothing. So the two orders come to the same draft where
no such child is met, and elsewhere only the key may come first (`Mapper.children_before_key`).
-/

namespace RecordMapping

open Attempt

/-- A field of the class that holds owned children, and writes their keys. -/
structure Mapper.HoldsChildren (mapper : Mapper) (field : Field) (relation : Relation) : Prop where
  bare : field.embedding = none
  plain : field.isInKey = false
  unpacked : field.isPacked = false
  related : field.relation = some relation
  owned : relation.owned = true
  written : mapper.skips relation = false

/-- Whether the key of a child in a value is stored as soon as the relation is noted. -/
def Field.PresentsKey (field : Field) (relation : Relation) (knownKey : Reference → Option Key)
    (value : FieldValue) : Prop :=
  field.isInsertable = true ∧ relation.isArray = false ∧
    ∃ child ∈ value.referents, ∃ key, knownKey child = some key

theorem Field.not_presentsKey_iff {relation : Relation} {knownKey : Reference → Option Key}
    {value : FieldValue} (field : Field) (insertable : field.isInsertable = true) :
    ¬ field.PresentsKey relation knownKey value ↔
      (relation.isArray = false → ∀ child ∈ value.referents, knownKey child = none) := by
  simp only [PresentsKey, insertable, true_and, not_and, not_exists, Option.eq_none_iff_forall_ne_some]

namespace Draft

variable {draft after keyed : Draft} {knownKey : Reference → Option Key} {className : String}
  {field : Field} {relation : Relation} {value : FieldValue} {stored : Value} {part : KeyPart}

/-! ## What is known of children -/

theorem presentValue_eq_ok_iff :
    draft.presentValue knownKey className field relation value = .ok stored ↔
      Presents knownKey field relation value stored ∧
        ∀ child ∈ value.referents, ∀ key, knownKey child = some key →
          draft.checkChild relation key = .ok () := by
  constructor
  · exact presentValue_gives
  · intro ⟨presents, passes⟩
    obtain ⟨keys, listed⟩ := presentKeys_passes_iff.mpr passes
    unfold presentValue
    cases presents with
    | null absent allowed =>
        simp only [absent, Field.refuseNull, allowed]
        rfl
    | @single child held single =>
        rw [FieldValue.referents_of_object held] at listed
        obtain ⟨known, here, _⟩ := bind_eq_ok_iff.mp listed
        simp only [held, single, ↓reduceIte, here, presentKey_eq here]
        rfl
    | @several items held several =>
        rw [presentKeys_eq_filterMap listed, FieldValue.referents_of_list held] at listed
        simp only [held, several, Bool.false_eq_true, ↓reduceIte, listed,
          FieldValue.referents_of_list held]
        rfl

/-- Nothing lies below a key without an identifier. -/
theorem checkChild_of_incomplete {key : Key} (owned : relation.owned = true)
    (incomplete : draft.key.isComplete = false) :
    draft.checkChild relation key = .error (.ownedChildReparenting key draft.key) := by
  unfold checkChild
  rw [if_pos]
  refine ⟨owned, ?_⟩
  intro below
  rw [isComplete_of_parent? below] at incomplete
  contradiction

theorem presentKey_of_incomplete {child : Reference} {key : Key} (owned : relation.owned = true)
    (incomplete : draft.key.isComplete = false) (known : knownKey child = some key) :
    draft.presentKey knownKey relation child = .error (.ownedChildReparenting key draft.key) := by
  simp only [presentKey, known, checkChild_of_incomplete owned incomplete]
  rfl

theorem presentKeys_of_incomplete {children : List Reference} (owned : relation.owned = true)
    (incomplete : draft.key.isComplete = false)
    (known : ∃ child ∈ children, ∃ key, knownKey child = some key) :
    ∃ child ∈ children, ∃ key, knownKey child = some key ∧
      draft.presentKeys knownKey relation children =
        .error (.ownedChildReparenting key draft.key) := by
  induction children with
  | nil =>
      obtain ⟨_, none, _⟩ := known
      contradiction
  | cons first rest ih =>
      cases held : knownKey first with
      | some key =>
          refine ⟨first, List.mem_cons_self, key, held, ?_⟩
          rw [presentKeys, presentKey_of_incomplete owned incomplete held]
          rfl
      | none =>
          obtain ⟨child, member, key, found⟩ := known
          have later : child ∈ rest := by
            obtain same | later := List.mem_cons.mp member
            · rw [same, held] at found
              contradiction
            · exact later
          obtain ⟨child, member, key, found, failed⟩ := ih ⟨child, later, key, found⟩
          refine ⟨child, List.mem_cons_of_mem first member, key, found, ?_⟩
          rw [presentKeys, failed, presentKey, held]
          rfl

/-- A child that has a key is refused as long as the record's key is incomplete. -/
theorem presentValue_of_incomplete (className : String) (owned : relation.owned = true)
    (incomplete : draft.key.isComplete = false)
    (known : ∃ child ∈ value.referents, ∃ key, knownKey child = some key)
    (presents : Presents knownKey field relation value stored) :
    ∃ child ∈ value.referents, ∃ key, knownKey child = some key ∧
      draft.presentValue knownKey className field relation value =
        .error (.ownedChildReparenting key draft.key) := by
  cases presents with
  | null absent _ =>
      obtain ⟨child, member, _⟩ := known
      rw [FieldValue.referents, absent] at member
      contradiction
  | @single child held single =>
      rw [FieldValue.referents_of_object held] at known ⊢
      obtain ⟨_, member, key, found⟩ := known
      rw [List.mem_singleton.mp member] at found
      refine ⟨child, List.mem_singleton_self child, key, found, ?_⟩
      simp only [presentValue, held, single, ↓reduceIte,
        presentKey_of_incomplete owned incomplete found]
      rfl
  | @several items held several =>
      obtain ⟨child, member, key, found, failed⟩ :=
        presentKeys_of_incomplete owned incomplete known
      refine ⟨child, member, key, found, ?_⟩
      rw [FieldValue.referents_of_list held] at failed
      simp only [presentValue, held, several, Bool.false_eq_true, ↓reduceIte, failed]
      rfl

/-! ## The key of a record that something is stored in -/

theorem withKey_putAll (draft : Draft) (key : Key) (keyOrigin : Option KeyOrigin)
    (parentOrigin : Option ParentOrigin) (noted : Option Pending) (properties : List Property) :
    ((draft.withKey key keyOrigin parentOrigin).noting noted).putAll properties =
      ((draft.noting noted).putAll properties).withKey key keyOrigin parentOrigin := by
  have record (record : Record) : Record.putAll { record with key } properties =
      { record.putAll properties with key } := by
    induction properties generalizing record with
    | nil => rfl
    | cons property rest ih => exact ih (record.put property.name property.value property.indexed)
  simp only [withKey, noting, putAll, record]

/-- What is stored in a new record has no part in what its key becomes. -/
theorem applyPart_putAll_iff (blank : draft.IsBlank) (noted : Option Pending)
    (properties : List Property) :
    ((draft.noting noted).putAll properties).applyPart part = .ok after ↔
      ∃ keyed, draft.applyPart part = .ok keyed ∧
        after = (keyed.noting noted).putAll properties := by
  generalize filled : (draft.noting noted).putAll properties = next
  have key : next.key = draft.key := filled ▸ draft.record.key_putAll properties
  have new : next.operation = .insert := filled ▸ blank.new
  have unplaced : next.parentOrigin = none := filled ▸ blank.unplaced
  have incomplete : next.key.isComplete = false := key ▸ blank.incomplete
  have kind : next.record.kind = draft.record.kind := congrArg Key.kind key
  have parent : next.record.parent? = draft.record.parent? := congrArg Key.parent? key
  have moved (key : Key) (keyOrigin : Option KeyOrigin) (parentOrigin : Option ParentOrigin) :
      next.withKey key keyOrigin parentOrigin =
        ((draft.withKey key keyOrigin parentOrigin).noting noted).putAll properties :=
    filled ▸ (draft.withKey_putAll key keyOrigin parentOrigin noted properties).symm
  cases part with
  | missing =>
      simp only [applyPart_missing incomplete, applyPart_missing blank.incomplete, Except.ok.injEq,
        exists_eq_left', filled]
      exact eq_comm
  | identifier identifier =>
      rw [applyPart_identifier_iff incomplete, parent, kind, unplaced]
      simp only [applyPart_identifier_iff blank.incomplete, blank.unplaced, moved]
      constructor
      · intro ⟨key, built, made⟩
        exact ⟨_, ⟨key, built, rfl⟩, made⟩
      · intro ⟨_, ⟨key, built, same⟩, made⟩
        exact ⟨key, built, same ▸ made⟩
  | whole key =>
      rw [applyPart_whole_iff new incomplete (parent.trans blank.rootless) unplaced, kind]
      simp only [applyPart_whole_iff blank.new blank.incomplete blank.rootless blank.unplaced, moved]
      constructor
      · intro ⟨sameKind, made⟩
        exact ⟨_, ⟨sameKind, rfl⟩, made⟩
      · intro ⟨_, ⟨sameKind, same⟩, made⟩
        exact ⟨sameKind, same ▸ made⟩

end Draft

/-! ## The field that holds the children -/

namespace Mapper

variable {mapper : Mapper} {knownKey : Reference → Option Key} {object : Reference}
  {draft keyed after : Draft} {field keyField : Field} {relation : Relation}
  {position keyAt : Nat} {value keyValue : FieldValue}

/-- A written field notes the children, and then puts what is known of them. -/
theorem HoldsChildren.fillField_eq (holds : mapper.HoldsChildren field relation)
    (found : draft.schema.field position = .ok field)
    (written : field.isWrittenBy draft.operation = true) :
    mapper.fillField knownKey position value draft =
      match mapper.putOf knownKey draft ⟨none, position, field, value⟩ with
      | .ok put => .ok ()
          ((draft.noting (mapper.notedOf ⟨none, position, field, value⟩)).putAll put.toList)
      | .error error => .error error
          (draft.noting (mapper.notedOf ⟨none, position, field, value⟩)) := by
  rw [fillField_of_not_inKey mapper knownKey value found holds.plain, storeField_eq_each,
    Field.leaves_of_bare holds.bare, if_pos written, each_singleton]
  exact mapper.storeLeaf_eq knownKey ⟨none, position, field, value⟩ draft

theorem HoldsChildren.fillField_gives_iff (holds : mapper.HoldsChildren field relation)
    (found : draft.schema.field position = .ok field) :
    (mapper.fillField knownKey position value).Gives draft () after ↔
      if field.isWrittenBy draft.operation then
        ∃ put, mapper.putOf knownKey draft ⟨none, position, field, value⟩ = .ok put ∧
          after = (draft.noting (mapper.notedOf ⟨none, position, field, value⟩)).putAll put.toList
      else after = draft := by
  unfold Gives
  split
  case isTrue written =>
    rw [holds.fillField_eq found written]
    cases mapper.putOf knownKey draft ⟨none, position, field, value⟩ with
    | ok put => simp [eq_comm]
    | error error => simp
  case isFalse unwritten =>
    rw [fillField_of_not_inKey mapper knownKey value found holds.plain, storeField_eq_each,
      Field.leaves_of_bare holds.bare, if_neg unwritten]
    constructor
    · intro skipped
      exact (EStateM.Result.ok.inj skipped).2.symm
    · intro same
      rw [same]
      rfl

theorem HoldsChildren.putOf_eq (holds : mapper.HoldsChildren field relation)
    (new : draft.operation = .insert) :
    mapper.putOf knownKey draft ⟨none, position, field, value⟩ =
      if relation.isArray then .ok none
      else do
        let stored ← draft.presentValue knownKey draft.schema.name field relation value
        return some ⟨mapper.propertyIn none field, stored, field.isIndexed⟩ := by
  have atOnce : mapper.storesAtOnce draft.operation relation = !relation.isArray := by
    rw [storesAtOnce, holds.written, new]
    rfl
  simp only [putOf, holds.unpacked, holds.related, Bool.false_eq_true, ↓reduceIte, atOnce]
  cases relation.isArray <;> rfl

/-- What can be put before the key is what can be put after it, if no child's key is looked at. -/
theorem HoldsChildren.putOf_iff {put : Option Property} (holds : mapper.HoldsChildren field relation)
    (new : draft.operation = .insert) (newToo : keyed.operation = .insert)
    (schema : keyed.schema = draft.schema) (incomplete : draft.key.isComplete = false)
    (below : ∀ child ∈ value.referents, ∀ key, knownKey child = some key →
      key.parent? = some keyed.key) :
    mapper.putOf knownKey draft ⟨none, position, field, value⟩ = .ok put ↔
      mapper.putOf knownKey keyed ⟨none, position, field, value⟩ = .ok put ∧
        (relation.isArray = false → ∀ child ∈ value.referents, knownKey child = none) := by
  rw [holds.putOf_eq new, holds.putOf_eq newToo, schema]
  cases relation.isArray with
  | true => simp
  | false =>
      have refused : ∀ key, draft.checkChild relation key ≠ .ok () := by
        intro key passed
        rw [Draft.checkChild_of_incomplete holds.owned incomplete] at passed
        contradiction
      have passes : ∀ child ∈ value.referents, ∀ key, knownKey child = some key →
          keyed.checkChild relation key = .ok () :=
        fun child member key known => Draft.checkChild_of fun _ => below child member key known
      simp only [Bool.false_eq_true, ↓reduceIte, bind_eq_ok_iff, Draft.presentValue_eq_ok_iff,
        true_implies]
      constructor
      · intro ⟨stored, ⟨presents, unknown⟩, made⟩
        refine ⟨⟨stored, ⟨presents, passes⟩, made⟩, ?_⟩
        intro child member
        rw [Option.eq_none_iff_forall_not_mem]
        exact fun key known => refused key (unknown child member key known)
      · intro ⟨⟨stored, ⟨presents, _⟩, made⟩, unknown⟩
        refine ⟨stored, ⟨presents, ?_⟩, made⟩
        intro child member key known
        rw [unknown child member] at known
        contradiction

/-! ## The two orders -/

section

variable (opened : mapper.insert object = .ok draft)
  (foundKey : draft.schema.field keyAt = .ok keyField) (roleKey : keyField.givesIdentifier = true)
  (found : draft.schema.field position = .ok field) (holds : mapper.HoldsChildren field relation)
  (filledKey : (mapper.fillField knownKey keyAt keyValue).Gives draft () keyed)

include opened found holds filledKey

theorem fillKey_fillChildren_iff :
    Gives (do
      mapper.fillField knownKey keyAt keyValue
      mapper.fillField knownKey position value) draft () after ↔
    if field.isInsertable then
      ∃ put, mapper.putOf knownKey keyed ⟨none, position, field, value⟩ = .ok put ∧
        after = (keyed.noting (mapper.notedOf ⟨none, position, field, value⟩)).putAll put.toList
    else after = keyed := by
  obtain ⟨-, -, blank⟩ := insert_ok opened
  have turn := (fillField_keeps fun _ _ => trivial).of_ok filledKey
  have written : field.isWrittenBy keyed.operation = field.isInsertable := by
    rw [turn.operation, blank.new]
    rfl
  rw [← written, ← holds.fillField_gives_iff (turn.schema.symm ▸ found), gives_bind_iff]
  constructor
  · intro ⟨_, middle, filled, stored⟩
    obtain ⟨_, same⟩ := EStateM.Result.ok.inj (filled.symm.trans filledKey)
    exact same ▸ stored
  · intro stored
    exact ⟨(), keyed, filledKey, stored⟩

include foundKey roleKey

/-- What is noted and put first stays, and the key becomes what it would have become. -/
theorem fillChildren_fillKey_iff :
    Gives (do
      mapper.fillField knownKey position value
      mapper.fillField knownKey keyAt keyValue) draft () after ↔
    if field.isInsertable then
      ∃ put, mapper.putOf knownKey draft ⟨none, position, field, value⟩ = .ok put ∧
        after = (keyed.noting (mapper.notedOf ⟨none, position, field, value⟩)).putAll put.toList
    else after = keyed := by
  obtain ⟨-, -, blank⟩ := insert_ok opened
  obtain ⟨part, given, applied⟩ := (fillField_gives_iff_of_keyField foundKey roleKey).mp filledKey
  have written : field.isWrittenBy draft.operation = field.isInsertable := by
    rw [blank.new]
    rfl
  have filled (noted : Option Pending) (properties : List Property) (after : Draft) :
      (mapper.fillField knownKey keyAt keyValue).Gives ((draft.noting noted).putAll properties) ()
        after ↔ after = (keyed.noting noted).putAll properties := by
    have foundToo : ((draft.noting noted).putAll properties).schema.field keyAt = .ok keyField :=
      foundKey
    rw [fillField_gives_iff_of_keyField foundToo roleKey]
    constructor
    · intro ⟨part', given', applied'⟩
      obtain rfl := Except.ok.inj (given'.symm.trans given)
      obtain ⟨keyed', same, made⟩ := (Draft.applyPart_putAll_iff blank noted properties).mp applied'
      obtain rfl := Except.ok.inj (same.symm.trans applied)
      exact made
    · intro made
      exact ⟨part, given, (Draft.applyPart_putAll_iff blank noted properties).mpr
        ⟨keyed, applied, made⟩⟩
  rw [gives_bind_iff]
  simp only [holds.fillField_gives_iff found, written]
  split
  case isTrue =>
    constructor
    · intro ⟨_, _, ⟨put, stored, made⟩, finished⟩
      rw [made, filled] at finished
      exact ⟨put, stored, finished⟩
    · intro ⟨put, stored, made⟩
      exact ⟨(), _, ⟨put, stored, rfl⟩, (filled _ _ _).mpr made⟩
  case isFalse =>
    constructor
    · intro ⟨_, _, same, finished⟩
      rw [same] at finished
      exact (EStateM.Result.ok.inj (finished.symm.trans filledKey)).2
    · intro same
      exact ⟨(), draft, rfl, same ▸ filledKey⟩

end

/-- A child that shows its key too early is refused. -/
theorem HoldsChildren.fillField_refused {stored : Value} (holds : mapper.HoldsChildren field relation)
    (found : draft.schema.field position = .ok field) (new : draft.operation = .insert)
    (incomplete : draft.key.isComplete = false)
    (presentsKey : field.PresentsKey relation knownKey value)
    (presents : Draft.Presents knownKey field relation value stored) :
    ∃ child ∈ value.referents, ∃ key, knownKey child = some key ∧ ∃ left,
      (mapper.fillField knownKey position value).Fails draft
        (.ownedChildReparenting key draft.key) left := by
  obtain ⟨insertable, notArray, known⟩ := presentsKey
  obtain ⟨child, member, key, shown, failed⟩ :=
    Draft.presentValue_of_incomplete draft.schema.name holds.owned incomplete known presents
  have written : field.isWrittenBy draft.operation = true := by
    rw [new]
    exact insertable
  have failedPut : mapper.putOf knownKey draft ⟨none, position, field, value⟩ =
      .error (.ownedChildReparenting key draft.key) := by
    rw [holds.putOf_eq new, notArray, failed]
    rfl
  refine ⟨child, member, key, shown,
    draft.noting (mapper.notedOf ⟨none, position, field, value⟩), ?_⟩
  rw [Fails, holds.fillField_eq found written, failedPut]

/-- **Children may come before the key if none of them shows one.** A new record is given its key by
one field and its children, all of whose keys lie below that key, by another. What the children first
and the key afterwards give is what the other order gives, as long as no child's key is to be stored
at once. If one is, the key has to come first: otherwise a child is refused because its key does not
lie below a key without an identifier. -/
theorem children_before_key (opened : mapper.insert object = .ok draft)
    (foundKey : draft.schema.field keyAt = .ok keyField)
    (roleKey : keyField.givesIdentifier = true)
    (found : draft.schema.field position = .ok field) (holds : mapper.HoldsChildren field relation)
    (filledKey : (mapper.fillField knownKey keyAt keyValue).Gives draft () keyed)
    (below : ∀ child ∈ value.referents, ∀ key, knownKey child = some key →
      key.parent? = some keyed.key) :
    (∀ after, Gives (do
        mapper.fillField knownKey position value
        mapper.fillField knownKey keyAt keyValue) draft () after ↔
      Gives (do
        mapper.fillField knownKey keyAt keyValue
        mapper.fillField knownKey position value) draft () after ∧
      ¬ field.PresentsKey relation knownKey value) ∧
    (field.PresentsKey relation knownKey value → ∀ after, Gives (do
        mapper.fillField knownKey keyAt keyValue
        mapper.fillField knownKey position value) draft () after →
      ∃ child ∈ value.referents, ∃ key, knownKey child = some key ∧ ∃ left, Fails (do
        mapper.fillField knownKey position value
        mapper.fillField knownKey keyAt keyValue) draft
          (.ownedChildReparenting key draft.key) left) := by
  obtain ⟨-, -, blank⟩ := insert_ok opened
  have turn := (fillField_keeps fun _ _ => trivial).of_ok filledKey
  have newToo : keyed.operation = .insert := turn.operation.trans blank.new
  refine ⟨?sameDraft, ?refused⟩
  case sameDraft =>
    intro after
    rw [fillChildren_fillKey_iff opened foundKey roleKey found holds filledKey,
      fillKey_fillChildren_iff opened found holds filledKey]
    simp only [holds.putOf_iff blank.new newToo turn.schema blank.incomplete below]
    split
    case isTrue insertable =>
      rw [field.not_presentsKey_iff insertable]
      constructor
      · intro ⟨put, ⟨stored, unknown⟩, made⟩
        exact ⟨⟨put, stored, made⟩, unknown⟩
      · intro ⟨⟨put, stored, made⟩, unknown⟩
        exact ⟨put, ⟨stored, unknown⟩, made⟩
    case isFalse fixed => exact (and_iff_left fun presentsKey => fixed presentsKey.1).symm
  case refused =>
    intro presentsKey after done
    rw [fillKey_fillChildren_iff opened found holds filledKey, if_pos presentsKey.1] at done
    obtain ⟨put, stored, _⟩ := done
    rw [holds.putOf_eq newToo, presentsKey.2.1] at stored
    obtain ⟨stored, presented, _⟩ := bind_eq_ok_iff.mp stored
    obtain ⟨child, member, key, known, left, failed⟩ := holds.fillField_refused found blank.new
      blank.incomplete presentsKey (Draft.presentValue_gives presented).1
    exact ⟨child, member, key, known, left, bind_of_error failed⟩

/-- A library whose one book has no key yet: its books may come first. -/
theorem children_before_key_books :
    libraryMapper.insert libraryWithBooks.object = .ok newLibrary ∧ ∃ after, Gives (do
      libraryMapper.fillField (fun _ => none) 1 (.list [.object book])
      libraryMapper.fillField (fun _ => none) 0 (.text "central")) newLibrary () after ∧
      after.key = library := by
  have opened : libraryMapper.insert libraryWithBooks.object = .ok newLibrary := rfl
  have holds : libraryMapper.HoldsChildren booksField (.collection "Book") :=
    ⟨rfl, rfl, rfl, rfl, rfl, rfl⟩
  have foundKey : newLibrary.schema.field 0 =
    .ok { name := "name", type := .string, isPrimaryKey := true } := rfl
  have foundBooks : newLibrary.schema.field 1 = .ok booksField := rfl
  have filledKey : (libraryMapper.fillField (fun _ => none) 0 (.text "central")).Gives newLibrary ()
      (newLibrary.withKey library (some .derived) none) := rfl
  have below : ∀ child ∈ (FieldValue.list [.object book]).referents, ∀ key : Key,
      (none : Option Key) = some key → key.parent? = some library := nofun
  have unshown : ¬ booksField.PresentsKey (.collection "Book") (fun _ => none)
      (.list [.object book]) := fun ⟨_, _, _, _, _, known⟩ => nomatch known
  have same := (children_before_key opened foundKey rfl foundBooks holds filledKey below).1
  exact ⟨opened, _, (same _).mpr ⟨rfl, unshown⟩, rfl⟩

/-- The same library with a book that has its key already, right below that of the library: its books
are refused if they come first, and only then. -/
theorem not_children_before_key_books :
    libraryMapper.insert libraryWithBooks.object = .ok newLibrary ∧ ∃ keyed after left,
      (libraryMapper.fillField (fun _ => some bookKey) 0 (.text "central")).Gives newLibrary ()
        keyed ∧
      bookKey.parent? = some keyed.key ∧ Gives (do
        libraryMapper.fillField (fun _ => some bookKey) 0 (.text "central")
        libraryMapper.fillField (fun _ => some bookKey) 1 (.list [.object book])) newLibrary ()
          after ∧
      Fails (do
        libraryMapper.fillField (fun _ => some bookKey) 1 (.list [.object book])
        libraryMapper.fillField (fun _ => some bookKey) 0 (.text "central")) newLibrary
          (.ownedChildReparenting bookKey newLibrary.key) left :=
  ⟨rfl, _, _, _, rfl, rfl, rfl, rfl⟩

end Mapper

end RecordMapping
