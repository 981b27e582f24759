import Mathlib.Data.List.Nodup
import RecordMapping.Proofs.Draft.Run
import RecordMapping.Proofs.Record

/-!
# The keys that resolving writes

The framework may store further objects and answer otherwise from one question to the next, so what
a relation's property holds is told by the moments of the call: `Framework.Answers` says at which
moment a key was answered and for which object, `Framework.Collects` how the keys of several objects
were collected one after the other, and `Framework.Settles` what the property holds then.
-/

namespace RecordMapping

open Attempt

namespace Framework

variable {World : Type} {framework : Framework World}
  {start middle finish : Surroundings World} {child : Reference} {key owner : Key}

/-- A key that was answered between two moments, for an object or for the one that took its place
when it was stored. -/
def Answers (framework : Framework World) (start : Surroundings World) (child : Reference)
    (key : Key) (finish : Surroundings World) : Prop :=
  ∃ moment handle, framework.Reaches start moment ∧ framework.Reaches moment finish ∧
    framework.knownKey moment.world handle = some key ∧
    (handle = child ∨ ∃ before after, framework.Reaches start before ∧
      framework.persist child before = .ok handle after ∧ framework.Reaches after moment)

/-- The keys that were answered for the objects of a list, in order. Objects that were reported as
deleted when their turn came have none. -/
inductive Collects (framework : Framework World) :
    Surroundings World → List Reference → List Key → Surroundings World → Prop where
  | nil {start : Surroundings World} : Collects framework start [] [] start
  | deleted {start finish : Surroundings World} {child : Reference} {rest : List Reference}
      {keys : List Key} (gone : framework.isDeleted start.world child = true)
      (others : Collects framework start rest keys finish) :
      Collects framework start (child :: rest) keys finish
  | keyed {start middle finish : Surroundings World} {child : Reference} {rest : List Reference}
      {key : Key} {keys : List Key} (there : framework.isDeleted start.world child = false)
      (answer : framework.Answers start child key middle)
      (others : Collects framework middle rest keys finish) :
      Collects framework start (child :: rest) (key :: keys) finish

/-- What the property of a relation holds after its keys were written between two moments: null for
null and for a deleted object, the key of a single object, and the keys of several objects that are
left. Keys of owned objects lie right below the key of their owner. -/
def Settles (framework : Framework World) (start : Surroundings World) (pending : Pending)
    (owner : Key) (stored : Value) (finish : Surroundings World) : Prop :=
  match pending.value.bare with
  | .null => stored = .null
  | .object child => pending.relation.isSingle = true ∧
      ((framework.isDeleted start.world child = true ∧ stored = .null) ∨
        (framework.isDeleted start.world child = false ∧
          ∃ key, framework.Answers start child key finish ∧
            (pending.relation.owned → key.parent? = some owner) ∧ stored = .key key))
  | .list items => pending.relation.isSingle = false ∧
      ∃ keys, framework.Collects start (items.filterMap FieldValue.object?) keys finish ∧
        (pending.relation.owned → ∀ key ∈ keys, key.parent? = some owner) ∧
        stored = .ofKeys keys
  | _ => False

theorem Answers.later (answer : framework.Answers start child key middle)
    (reached : framework.Reaches middle finish) : framework.Answers start child key finish := by
  obtain ⟨moment, handle, first, second, known, given⟩ := answer
  exact ⟨moment, handle, first, second.trans reached, known, given⟩

/-- A property that counts as holding what is to be stored does hold it. -/
theorem Settles.eq_of_same {pending : Pending} {held stored : Value}
    (settled : framework.Settles start pending owner stored finish)
    (alike : Value.same held stored) : held = stored := by
  unfold Settles at settled
  split at settled
  case h_1 =>
    obtain rfl := settled
    exact Value.eq_of_same_null alike
  case h_2 =>
    rcases settled.2 with ⟨-, rfl⟩ | ⟨-, key, -, -, rfl⟩
    · exact Value.eq_of_same_null alike
    · exact Value.eq_of_same_key alike
  case h_3 =>
    obtain ⟨-, keys, -, -, rfl⟩ := settled
    exact Value.eq_of_same_ofKeys alike
  case h_4 => exact settled.elim

end Framework

namespace Draft

variable {World : Type} {framework : Framework World} {draft : Draft} {pending : Pending}
  {around after : Surroundings World} {relation : Relation} {child object : Reference} {key : Key}

/-! ## One object -/

theorem checkChild_ok (passed : draft.checkChild relation key = .ok ()) :
    relation.owned → key.parent? = some draft.key := by
  intro owned
  unfold checkChild at passed
  split at passed
  case isTrue => contradiction
  case isFalse fine =>
    by_contra foreign
    exact fine ⟨owned, foreign⟩

theorem checkChild_of (below : relation.owned → key.parent? = some draft.key) :
    draft.checkChild relation key = .ok () := by
  unfold checkChild
  split
  case isTrue refused => exact (refused.2 (below refused.1)).elim
  case isFalse => rfl

theorem managedObject_gives (done : (managedObject framework child).Gives around object after) :
    (object = child ∧ after = around) ∨ framework.persist child around = .ok object after := by
  unfold managedObject at done
  replace done := done.get_bind
  simp only at done
  split at done
  · obtain ⟨rfl, rfl⟩ := done.pure
    exact .inl ⟨rfl, rfl⟩
  · exact .inr done

theorem flushedKey_gives (done : (flushedKey framework object).Gives around key after) :
    framework.knownKey after.world object = some key := by
  unfold flushedKey at done
  replace done := done.get_bind
  split at done
  case h_1 known =>
    obtain ⟨rfl, rfl⟩ := done.pure
    exact known
  case h_2 =>
    obtain ⟨_, flushed, -, answered⟩ := done.bind
    replace answered := answered.get_bind
    split at answered
    case h_1 known =>
      obtain ⟨rfl, rfl⟩ := answered.pure
      exact known
    case h_2 => exact (not_gives_throw answered).elim

/-- The key of a related object was answered, for it or for the object that took its place. -/
theorem relatedKey_gives
    (done : (relatedKey framework draft relation child).Gives around (object, key) after) :
    framework.Answers around child key after ∧
      (relation.owned → key.parent? = some draft.key) := by
  unfold relatedKey at done
  replace done := done.get_bind
  split at done
  case h_1 known =>
    obtain ⟨_, _, checked, made⟩ := done.bind
    obtain ⟨passed, rfl⟩ := checked.lift
    obtain ⟨given, rfl⟩ := made.pure
    obtain ⟨rfl, rfl⟩ := Prod.mk.inj given
    exact ⟨⟨_, _, .refl, .refl, known, .inl rfl⟩, checkChild_ok passed⟩
  case h_2 =>
    obtain ⟨_, managed, found, rest⟩ := done.bind
    obtain ⟨_, _, keyed, rest⟩ := rest.bind
    obtain ⟨_, _, checked, made⟩ := rest.bind
    obtain ⟨passed, rfl⟩ := checked.lift
    obtain ⟨given, rfl⟩ := made.pure
    obtain ⟨rfl, rfl⟩ := Prod.mk.inj given
    have toManaged : framework.Reaches around managed :=
      (managedObject_keeps framework.obeys_conduct).of_ok found
    have toKeyed : framework.Reaches managed after :=
      (flushedKey_keeps framework.obeys_conduct).of_ok keyed
    refine ⟨⟨after, object, toManaged.trans toKeyed, .refl, flushedKey_gives keyed, ?_⟩,
      checkChild_ok passed⟩
    rcases managedObject_gives found with ⟨rfl, -⟩ | stored
    · exact .inl rfl
    · exact .inr ⟨around, managed, .refl, stored, toKeyed⟩

/-! ## Several objects -/

theorem relatedKeys_gives {children : List Reference} {keys : List Key}
    (done : (relatedKeys framework draft relation children).Gives around keys after) :
    framework.Collects around children keys after ∧
      (relation.owned → ∀ key ∈ keys, key.parent? = some draft.key) := by
  induction children generalizing around keys with
  | nil =>
      obtain ⟨rfl, rfl⟩ := done.pure
      exact ⟨.nil, fun _ => List.forall_mem_nil _⟩
  | cons child rest ih =>
      unfold relatedKeys at done
      replace done := done.get_bind
      split at done
      case isTrue gone =>
        obtain ⟨others, below⟩ := ih done
        exact ⟨.deleted gone others, below⟩
      case isFalse there =>
        obtain ⟨⟨handle, key⟩, middle, keyed, collected⟩ := done.bind
        obtain ⟨others, last, collectedOthers, made⟩ := collected.bind
        obtain ⟨rfl, rfl⟩ := made.pure
        obtain ⟨answer, belowKey⟩ := relatedKey_gives keyed
        obtain ⟨collects, belowOthers⟩ := ih collectedOthers
        rw [Bool.not_eq_true] at there
        exact ⟨.keyed there answer collects, fun owned =>
          List.forall_mem_cons.mpr ⟨belowKey owned, belowOthers owned⟩⟩

/-! ## One relation -/

theorem relatedValue_gives {stored : Value}
    (done : (relatedValue framework draft pending child).Gives around stored after) :
    (framework.isDeleted around.world child = true ∧ stored = .null) ∨
      (framework.isDeleted around.world child = false ∧
        ∃ key, framework.Answers around child key after ∧
          (pending.relation.owned → key.parent? = some draft.key) ∧ stored = .key key) := by
  unfold relatedValue at done
  replace done := done.get_bind
  split at done
  case isTrue gone =>
    obtain ⟨rfl, rfl⟩ := done.pure
    exact .inl ⟨gone, rfl⟩
  case isFalse there =>
    rw [Bool.not_eq_true] at there
    obtain ⟨⟨handle, key⟩, keyed, found, rest⟩ := done.bind
    obtain ⟨answer, below⟩ := relatedKey_gives found
    refine .inr ⟨there, key, ?_⟩
    simp only at rest
    -- Whether the field of the owner is set to another object or not, the key is the same.
    split at rest
    · split at rest
      · obtain ⟨_, replaced, set, made⟩ := rest.bind
        obtain ⟨rfl, rfl⟩ := made.pure
        have toLast : framework.Reaches keyed after :=
          (framework.obeys_conduct.setField _ _ _ _).of_ok set
        exact ⟨answer.later toLast, below, rfl⟩
      · obtain ⟨rfl, rfl⟩ := rest.pure
        exact ⟨answer, below, rfl⟩
    · obtain ⟨rfl, rfl⟩ := rest.pure
      exact ⟨answer, below, rfl⟩

theorem childKeys_gives {stored : Value}
    (done : (childKeys framework draft pending).Gives around stored after) :
    framework.Settles around pending draft.key stored after := by
  unfold childKeys at done
  simp only at done
  split at done
  case h_1 absent =>
    obtain ⟨_, _, -, made⟩ := done.bind
    obtain ⟨rfl, -⟩ := made.pure
    rw [Framework.Settles, absent]
  case h_2 child found =>
    rw [Framework.Settles, found]
    split at done
    case isTrue single => exact ⟨single, relatedValue_gives done⟩
    case isFalse => exact (not_gives_throw done).elim
  case h_3 items found =>
    rw [Framework.Settles, found]
    split at done
    case isTrue => exact (not_gives_throw done).elim
    case isFalse several =>
      obtain ⟨keys, last, collected, made⟩ := done.bind
      obtain ⟨rfl, rfl⟩ := made.pure
      obtain ⟨collects, below⟩ := relatedKeys_gives collected
      rw [Bool.not_eq_true] at several
      exact ⟨several, keys, collects, below, rfl⟩
  case h_4 => exact (not_gives_throw done).elim

/-! ## The record -/

variable {space final : Workspace World} {changed : Bool}

theorem writeChildKeys_gives
    (done : (writeChildKeys framework pending).Gives space changed final) :
    (∃ stored, framework.Settles space.surroundings pending space.draft.key stored
        final.surroundings ∧ final.draft.record.get? pending.property = some stored) ∧
      ∀ other, other ≠ pending.property →
        final.draft.record.get? other = space.draft.record.get? other := by
  unfold writeChildKeys at done
  replace done := done.get_bind
  obtain ⟨stored, written, collected, rest⟩ := done.bind
  obtain ⟨around, collectedAround, rfl⟩ := collected.onPart
  have settled := childKeys_gives collectedAround
  split at rest
  case isTrue unchanged =>
    obtain ⟨-, rfl⟩ := rest.pure
    refine ⟨⟨stored, settled, ?_⟩, fun _ _ => rfl⟩
    change space.draft.record.get? pending.property = some stored
    cases held : space.draft.record.get? pending.property with
    | none =>
        rw [held] at unchanged
        contradiction
    | some value =>
        rw [held] at unchanged
        rw [settled.eq_of_same unchanged]
  case isFalse =>
    obtain ⟨_, _, put, made⟩ := rest.bind
    obtain ⟨-, rfl⟩ := made.pure
    obtain ⟨-, rfl⟩ := EStateM.Result.ok.inj put
    refine ⟨⟨stored, settled, Record.get?_put _ _ _ _⟩, ?_⟩
    intro other different
    exact Record.get?_put_of_ne different.symm _ _ _

end Draft

/-- At the end the property of a relation holds what was settled between two moments of a call. -/
def Framework.HoldsSettled {World : Type} (framework : Framework World)
    (space : Workspace World) (pending : Pending) (final : Workspace World) : Prop :=
  ∃ start finish stored, framework.Reaches space.surroundings start ∧
    framework.Reaches start finish ∧ framework.Reaches finish final.surroundings ∧
    framework.Settles start pending final.draft.key stored finish ∧
    final.draft.record.get? pending.property = some stored

namespace Draft

variable {World : Type} {framework : Framework World} {space final : Workspace World}
  {changed : Bool}

/-- **Every relation keeps what was settled for it**, because the relations written after it have
other properties. The induction is on the relations. -/
theorem writeAllChildKeys_gives {noted : List Pending}
    (distinct : (noted.map Pending.property).Nodup)
    (done : (writeAllChildKeys framework noted).Gives space changed final) :
    (∀ pending ∈ noted, framework.HoldsSettled space pending final) ∧
      ∀ other, other ∉ noted.map Pending.property →
        final.draft.record.get? other = space.draft.record.get? other := by
  induction noted generalizing space changed with
  | nil =>
      obtain ⟨-, rfl⟩ := done.pure
      exact ⟨List.forall_mem_nil _, fun _ _ => rfl⟩
  | cons pending rest ih =>
      obtain ⟨fresh, distinctRest⟩ := List.nodup_cons.mp distinct
      unfold writeAllChildKeys at done
      obtain ⟨_, middle, written, remaining⟩ := done.bind
      obtain ⟨_, last, writtenRest, made⟩ := remaining.bind
      obtain ⟨-, rfl⟩ := made.pure
      obtain ⟨⟨stored, settled, held⟩, kept⟩ := writeChildKeys_gives written
      obtain ⟨heldRest, keptRest⟩ := ih distinctRest writtenRest
      obtain ⟨toMiddle, sameKey⟩ := writeChildKeys_keeps.of_ok written
      obtain ⟨toFinal, sameKeyRest⟩ := writeAllChildKeys_keeps.of_ok writtenRest
      constructor
      · rw [List.forall_mem_cons]
        constructor
        · refine ⟨space.surroundings, middle.surroundings, stored, .refl, toMiddle, toFinal, ?_, ?_⟩
          · rw [sameKeyRest.key, sameKey.key]
            exact settled
          · rw [keptRest pending.property fresh]
            exact held
        · intro other member
          obtain ⟨start, finish, value, before, between, after, heldOther⟩ := heldRest other member
          exact ⟨start, finish, value, toMiddle.trans before, between, after, heldOther⟩
      · intro other absent
        rw [List.map_cons, List.mem_cons, not_or] at absent
        rw [keptRest other absent.2, kept other absent.1]

end Draft

namespace Mapper

variable {World : Type} {mapper : Mapper} {framework : Framework World}
  {space final : Workspace World} {changed : Bool}

theorem resolvePending_gives (keepsKeys : framework.KeepsKeys) {noted : List Pending}
    (distinct : (noted.map Pending.property).Nodup)
    (done : (mapper.resolvePending framework noted).Gives space changed final) :
    ∀ pending ∈ noted, mapper.skips pending.relation = false →
      framework.HoldsSettled space pending final := by
  unfold resolvePending at done
  replace done := done.get_bind
  obtain ⟨_, registered, registering, rest⟩ := done.bind
  obtain ⟨_, referenced, referencing, rest⟩ := rest.bind
  obtain ⟨_, notified, notifying, rest⟩ := rest.bind
  have toRegistered : framework.Reaches space.surroundings registered.surroundings :=
    (registerAll_keeps.of_ok registering).1
  have toReferenced : framework.Reaches registered.surroundings referenced.surroundings :=
    ((writeReferences_keeps keepsKeys).of_ok referencing).1
  have toNotified : framework.Reaches referenced.surroundings notified.surroundings :=
    (notifyAll_keeps.of_ok notifying).1
  obtain ⟨held, -⟩ := Draft.writeAllChildKeys_gives
    (distinct.sublist (List.filter_sublist.map Pending.property)) rest
  intro pending member written
  have chosen := held pending (List.mem_filter.mpr ⟨member, by rw [written]; rfl⟩)
  obtain ⟨start, finish, stored, before, between, after, settled⟩ := chosen
  exact ⟨start, finish, stored,
    ((toRegistered.trans toReferenced).trans toNotified).trans before, between, after, settled⟩

/-- **What resolving relations leaves in the record.** After a success, each relation that was noted
and is not skipped has, as its property, what was settled for it at two moments of the call. -/
theorem resolve_settles (keepsKeys : framework.KeepsKeys)
    (distinct : (space.draft.pending.map Pending.property).Nodup)
    (done : mapper.resolve framework space = .ok changed final) :
    final.draft.key = space.draft.key ∧
      ∀ pending ∈ space.draft.pending, mapper.skips pending.relation = false →
        ∃ start finish stored, framework.Reaches space.surroundings start ∧
          framework.Reaches start finish ∧ framework.Reaches finish final.surroundings ∧
          framework.Settles start pending space.draft.key stored finish ∧
          final.draft.record.get? pending.property = some stored := by
  have sameKey : final.draft.key = space.draft.key :=
    ((resolve_keeps keepsKeys).of_ok done).2.key
  refine ⟨sameKey, ?_⟩
  intro pending member written
  rw [← sameKey]
  unfold resolve at done
  replace done := Gives.get_bind done
  simp only at done
  split at done
  case isTrue empty =>
    rw [List.isEmpty_iff.mp empty] at member
    contradiction
  split at done
  case isTrue => exact (not_gives_throw done).elim
  case isFalse =>
    obtain ⟨_, emptied, taken, resolved⟩ := done.bind
    obtain ⟨-, rfl⟩ := EStateM.Result.ok.inj taken
    exact resolvePending_gives keepsKeys distinct resolved pending member written

end Mapper

/-! ## A library and its books, as an example -/

def booksField : Field where
  name := "books"
  type := .list
  relation := some (.collection "Book")

def libraryClass : Schema where
  name := "Library"
  kind := "Library"
  inheritance := .newTable
  isEmbeddable := false
  fields := [{ name := "name", type := .string, isPrimaryKey := true }, booksField]

/-- The key of the book below its library. -/
def bookKey : Key :=
  ⟨[⟨"Library", .name "central"⟩], "Book", some (.id 7)⟩

/-- A framework with one book, which has no key until it is flushed. -/
def flushingFramework : Framework (Option Key) where
  fieldValue _ _ _ := .ok (.list [.object book])
  knownKey world object := if object = book then world else none
  isDeleted _ _ := false
  isDetached _ _ := false
  isManaged _ _ := true
  setField _ _ _ := pure ()
  persist object := pure object
  flush _ := modify fun around => { around with world := some bookKey }

/-- The books of a library as they are noted. -/
def notedBooks : Pending :=
  ⟨booksField, .collection "Book", some 1, "books", .list [.object book]⟩

/-- A new library with its key, whose books are noted. -/
def libraryWithBooks : Draft where
  object := ⟨⟨2⟩, "Library"⟩
  schema := libraryClass
  operation := .insert
  record := ⟨library, []⟩
  pending := [notedBooks]

/-- The key that the book was given when it was flushed is what the library's books hold. -/
theorem Mapper.resolve_settles_books :
    ∃ final start finish stored,
      bookMapper.resolve flushingFramework ⟨libraryWithBooks, ⟨{}, none⟩⟩ = .ok true final ∧
        flushingFramework.Reaches ⟨{}, none⟩ start ∧ flushingFramework.Reaches start finish ∧
        flushingFramework.Settles start notedBooks library stored finish ∧
        final.draft.record.get? "books" = some stored := by
  have keepsKeys : flushingFramework.KeepsKeys := fun _ _ _ _ _ => rfl
  have distinct : (libraryWithBooks.pending.map Pending.property).Nodup := List.nodup_singleton _
  have done : bookMapper.resolve flushingFramework ⟨libraryWithBooks, ⟨{}, none⟩⟩ = .ok true
      ⟨{ libraryWithBooks with
          record := ⟨library, [⟨"books", .ofKeys [bookKey], true⟩]⟩, pending := [] },
        ⟨{ parents := [(book.id, library)] }, some bookKey⟩⟩ := rfl
  obtain ⟨start, finish, stored, before, between, -, settled, held⟩ :=
    (resolve_settles keepsKeys distinct done).2 notedBooks (List.mem_singleton_self _) rfl
  exact ⟨_, start, finish, stored, done, before, between, settled, held⟩

end RecordMapping
