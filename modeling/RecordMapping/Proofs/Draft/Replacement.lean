import RecordMapping.Proofs.Draft.Discipline
import RecordMapping.Proofs.Draft.Sightings

/-!
# Objects that take the place of others

A framework may store an object as another one, a managed copy for instance. Each relation has its
turn in a call that resolves relations, and `Framework.Errand` says what is asked for in it: its
objects are made persistent or flushed, and then, if it refers to one object, the field of the owner
is set to what that object was stored as. So the next call finds the copy there, whose key the record
holds (`Mapper.resolve_replaces`).

The field of a relation to several objects is never set. It goes on holding the originals, and the
next call has them stored once more (`Mapper.not_resolve_replaces_books`).
-/

namespace RecordMapping

open Attempt

variable {World : Type} {framework : Framework World} {owner child object : Reference}
  {position : Nat} {pending : Pending} {key : Key} {entry : Entry World}

/-- Whether a request sets the field of an object at a position. -/
def Entry.sets (owner : Reference) (position : Nat) (entry : Entry World) : Bool :=
  match entry.request with
  | .setField target location _ => target = owner && location = position
  | _ => false

/-- A request that has an object stored, and is given another one for it or the same, or one that has
that one flushed. -/
def Entry.Serves (child object : Reference) (entry : Entry World) : Prop :=
  (entry.request = .persist child ∧ entry.answer = .ok (some object)) ∨
    entry.request = .flush object

/-- Such a request for one of several objects. -/
def Entry.ServesAmong (children : List Reference) (entry : Entry World) : Prop :=
  ∃ child ∈ children, ∃ object, entry.Serves child object

/-- Whether the requests that lead from one moment to a later one are all of a kind. -/
def Surroundings.Asks (start : Surroundings (Logged World)) (kind : Entry World → Prop)
    (finish : Surroundings (Logged World)) : Prop :=
  ∃ asked, finish.log = start.log ++ asked ∧ ∀ entry ∈ asked, kind entry

/-- The request that puts another object into the field of the owner. -/
def Pending.replacement (pending : Pending) (owner child object : Reference) (world : World) :
    List (Entry World) :=
  match pending.position with
  | some position =>
      if object = child then [] else [⟨.setField owner position (.object object), world, .ok none⟩]
  | none => []

/-- What the turn of a relation asks for, and what its property holds then. Nothing is asked for if
it is null or its object deleted. -/
inductive Framework.Errand (framework : Framework World) (draft : Draft) (pending : Pending) :
    List (Entry World) → Value → Prop where
  | spared : Errand framework draft pending [] .null
  | single {child object : Reference} {key : Key} {world : World} {served : List (Entry World)}
      (one : pending.relation.isSingle = true) (refers : pending.value.bare = .object child)
      (serves : ∀ entry ∈ served, entry.Serves child object)
      (known : framework.knownKey world object = some key)
      (below : pending.relation.owned → key.parent? = some draft.key) :
      Errand framework draft pending
        (served ++ pending.replacement draft.object child object world) (.key key)
  | several {keys : List Key} {served : List (Entry World)}
      (many : pending.relation.isSingle = false)
      (serves : ∀ entry ∈ served, entry.ServesAmong pending.value.referents) :
      Errand framework draft pending served (.ofKeys keys)

/-! ## Requests that set a field -/

theorem Entry.Serves.not_sets (serves : entry.Serves child object) :
    ¬ entry.sets owner position = true := by
  unfold Entry.sets
  rcases serves with ⟨persisted, -⟩ | flushed
  · rw [persisted]
    exact Bool.false_ne_true
  · rw [flushed]
    exact Bool.false_ne_true

theorem Entry.not_sets_of_hook (hook : entry.request.stores = false) :
    ¬ entry.sets owner position = true := by
  unfold Entry.sets
  split
  case h_1 asked =>
    rw [asked] at hook
    contradiction
  case h_2 => exact Bool.false_ne_true

theorem Pending.replacement_of_ne (located : pending.position = some position)
    (other : object ≠ child) (world : World) :
    pending.replacement owner child object world =
      [⟨.setField owner position (.object object), world, .ok none⟩] := by
  simp only [replacement, located, if_neg other]

theorem Pending.replacement_of_none (inside : pending.position = none) (world : World) :
    pending.replacement owner child object world = [] := by
  simp only [replacement, inside]

theorem Pending.replacement_self (world : World) :
    pending.replacement owner child child world = [] := by
  unfold replacement
  split
  · exact if_pos rfl
  · rfl

theorem Pending.not_sets_replacement (elsewhere : pending.position ≠ some position)
    {target : Reference} {world : World}
    (member : entry ∈ pending.replacement target child object world) :
    ¬ entry.sets owner position = true := by
  unfold replacement at member
  split at member
  case h_1 location located =>
    split at member
    · contradiction
    · obtain rfl := List.mem_singleton.mp member
      have apart : location ≠ position := fun same => elsewhere (same ▸ located)
      simp only [Entry.sets, apart, decide_false, Bool.and_false, Bool.false_eq_true,
        not_false_eq_true]
  case h_2 => contradiction

/-- A turn sets no field but that of its relation, and that only if it refers to one object. -/
theorem Framework.Errand.filter_sets_eq_nil {draft : Draft} {errand : List (Entry World)}
    {stored : Value} (errands : framework.Errand draft pending errand stored)
    (elsewhere : pending.position ≠ some position ∨ pending.relation.isSingle = false) :
    errand.filter (Entry.sets owner position) = [] := by
  rw [List.filter_eq_nil_iff]
  cases errands with
  | spared => exact List.forall_mem_nil _
  | single one refers serves known below =>
      have apart : pending.position ≠ some position := by
        rcases elsewhere with apart | several
        · exact apart
        · rw [one] at several
          contradiction
      rw [List.forall_mem_append]
      exact ⟨fun entry member => (serves entry member).not_sets,
        fun entry member => Pending.not_sets_replacement apart member⟩
  | several many serves =>
      intro entry member
      obtain ⟨child, -, object, served⟩ := serves entry member
      exact served.not_sets

/-- If an object was stored as another one, the turn ends with that object being put in its place. -/
theorem Framework.Errand.replaces {draft : Draft} {errand : List (Entry World)} {stored : Value}
    {start : World} (errands : framework.Errand draft pending errand stored)
    (one : pending.relation.isSingle = true) (located : pending.position = some position)
    (given : ⟨.persist child, start, .ok (some object)⟩ ∈ errand) (other : object ≠ child) :
    pending.value.bare = .object child ∧ ∃ key world,
      errand.filter (Entry.sets draft.object position) =
        [⟨.setField draft.object position (.object object), world, .ok none⟩] ∧
      framework.knownKey world object = some key ∧
      (pending.relation.owned → key.parent? = some draft.key) ∧ stored = .key key := by
  cases errands with
  | spared => exact (List.not_mem_nil given).elim
  | @single asked handle key world served _ refers serves known below =>
      have early : ⟨.persist child, start, .ok (some object)⟩ ∈ served := by
        rcases List.mem_append.mp given with early | late
        · exact early
        · unfold Pending.replacement at late
          simp only [located] at late
          split at late
          · contradiction
          · cases List.mem_singleton.mp late
      obtain ⟨rfl, rfl⟩ : asked = child ∧ handle = object := by
        rcases serves _ early with ⟨persisted, answered⟩ | flushed
        · cases persisted
          cases answered
          exact ⟨rfl, rfl⟩
        · cases flushed
      have unset : served.filter (Entry.sets draft.object position) = [] :=
        List.filter_eq_nil_iff.mpr fun entry member => (serves entry member).not_sets
      refine ⟨refers, key, world, ?_, known, below, rfl⟩
      rw [Pending.replacement_of_ne located other, List.filter_append, unset, List.nil_append]
      exact List.filter_cons_of_pos (by simp only [Entry.sets, decide_true, Bool.and_self])
  | several many =>
      rw [one] at many
      contradiction

/-! ## The turn of a relation -/

namespace Surroundings.Asks

variable {start middle finish : Surroundings (Logged World)} {kind other : Entry World → Prop}

theorem refl : start.Asks kind start :=
  ⟨[], (List.append_nil _).symm, List.forall_mem_nil _⟩

theorem single (logged : finish.log = start.log ++ [entry]) (holds : kind entry) :
    start.Asks kind finish :=
  ⟨[entry], logged, List.forall_mem_singleton.mpr holds⟩

theorem trans (first : start.Asks kind middle) (second : middle.Asks kind finish) :
    start.Asks kind finish := by
  obtain ⟨asked, toMiddle, before⟩ := first
  obtain ⟨more, toFinish, after⟩ := second
  refine ⟨asked ++ more, ?_, List.forall_mem_append.mpr ⟨before, after⟩⟩
  rw [toFinish, toMiddle, List.append_assoc]

theorem mono (asks : start.Asks kind finish) (implies : ∀ entry, kind entry → other entry) :
    start.Asks other finish := by
  obtain ⟨asked, logged, all⟩ := asks
  exact ⟨asked, logged, fun entry member => implies entry (all entry member)⟩

end Surroundings.Asks

namespace Draft

variable {draft : Draft} {relation : Relation} {around next : Surroundings (Logged World)}
  {stored : Value}

theorem managedObject_serves
    (done : (managedObject framework.logging child).Gives around object next) :
    around.Asks (Entry.Serves child object) next := by
  rcases managedObject_gives done with ⟨-, rfl⟩ | persisted
  · exact .refl
  · exact .single (Recorder.onSurroundings.note_gives persisted) (.inl ⟨rfl, rfl⟩)

theorem flushedKey_serves (done : (flushedKey framework.logging object).Gives around key next) :
    around.Asks (Entry.Serves child object) next := by
  unfold flushedKey at done
  replace done := done.get_bind
  split at done
  case h_1 =>
    obtain ⟨-, rfl⟩ := done.pure
    exact .refl
  case h_2 =>
    obtain ⟨_, flushed, asked, answered⟩ := done.bind
    have same : next = flushed := by
      replace answered := answered.get_bind
      split at answered
      · exact answered.pure.2
      · exact (not_gives_throw answered).elim
    rw [same]
    exact .single (Recorder.onSurroundings.note_gives asked) (.inr rfl)

/-- The key that is used for a related object is that of the object it is stored as. -/
theorem relatedKey_serves
    (done : (relatedKey framework.logging draft relation child).Gives around (object, key) next) :
    framework.knownKey next.world.world object = some key ∧
      around.Asks (Entry.Serves child object) next := by
  unfold relatedKey at done
  replace done := done.get_bind
  split at done
  case h_1 known =>
    obtain ⟨_, _, checked, made⟩ := done.bind
    obtain ⟨-, rfl⟩ := checked.lift
    obtain ⟨given, rfl⟩ := made.pure
    obtain ⟨rfl, rfl⟩ := Prod.mk.inj given
    exact ⟨known, .refl⟩
  case h_2 =>
    obtain ⟨handle, managed, found, rest⟩ := done.bind
    obtain ⟨_, _, keyed, rest⟩ := rest.bind
    obtain ⟨_, _, checked, made⟩ := rest.bind
    obtain ⟨-, rfl⟩ := checked.lift
    obtain ⟨given, rfl⟩ := made.pure
    obtain ⟨rfl, rfl⟩ := Prod.mk.inj given
    exact ⟨flushedKey_gives keyed, (managedObject_serves found).trans (flushedKey_serves keyed)⟩

theorem relatedKeys_serves {children : List Reference} {keys : List Key}
    (done : (relatedKeys framework.logging draft relation children).Gives around keys next) :
    around.Asks (Entry.ServesAmong children) next := by
  induction children generalizing around keys with
  | nil =>
      obtain ⟨-, rfl⟩ := done.pure
      exact .refl
  | cons child rest ih =>
      have others {start : Surroundings (Logged World)}
          (asks : start.Asks (Entry.ServesAmong rest) next) :
          start.Asks (Entry.ServesAmong (child :: rest)) next := by
        apply asks.mono
        intro entry ⟨other, listed, serves⟩
        exact ⟨other, List.mem_cons_of_mem child listed, serves⟩
      unfold relatedKeys at done
      replace done := done.get_bind
      split at done
      case isTrue => exact others (ih done)
      case isFalse =>
        obtain ⟨⟨object, found⟩, middle, keyed, remaining⟩ := done.bind
        obtain ⟨_, last, collected, made⟩ := remaining.bind
        obtain ⟨-, rfl⟩ := made.pure
        have here : around.Asks (Entry.ServesAmong (child :: rest)) middle :=
          (relatedKey_serves keyed).2.mono fun _ serves =>
            ⟨child, List.mem_cons_self, object, serves⟩
        exact here.trans (others (ih collected))

theorem relatedValue_errand (one : pending.relation.isSingle = true)
    (refers : pending.value.bare = .object child)
    (done : (relatedValue framework.logging draft pending child).Gives around stored next) :
    ∃ errand, next.log = around.log ++ errand ∧ framework.Errand draft pending errand stored := by
  unfold relatedValue at done
  replace done := done.get_bind
  split at done
  case isTrue =>
    obtain ⟨rfl, rfl⟩ := done.pure
    exact ⟨[], (List.append_nil _).symm, .spared⟩
  case isFalse =>
    obtain ⟨⟨object, key⟩, keyed, found, rest⟩ := done.bind
    obtain ⟨known, served, toKeyed, serves⟩ := relatedKey_serves found
    have below := (relatedKey_gives found).2
    have put : stored = .key key ∧ next.log =
        keyed.log ++ pending.replacement draft.object child object keyed.world.world := by
      simp only at rest
      split at rest
      case isTrue other =>
        split at rest
        case h_1 position located =>
          obtain ⟨_, _, set, made⟩ := rest.bind
          obtain ⟨rfl, rfl⟩ := made.pure
          obtain ⟨left, asked, rfl⟩ := set.onPart
          rw [Pending.replacement_of_ne located other]
          exact ⟨rfl, Recorder.onWorld.note_gives asked⟩
        case h_2 located =>
          obtain ⟨rfl, rfl⟩ := rest.pure
          rw [Pending.replacement_of_none located]
          exact ⟨rfl, (List.append_nil _).symm⟩
      case isFalse same =>
        obtain ⟨rfl, rfl⟩ := rest.pure
        obtain rfl := of_not_not same
        rw [Pending.replacement_self]
        exact ⟨rfl, (List.append_nil _).symm⟩
    obtain ⟨rfl, toNext⟩ := put
    refine ⟨_, ?_, .single one refers serves known below⟩
    rw [toNext, toKeyed, List.append_assoc]

/-- **The turn of a relation asks for what its errand is.** -/
theorem childKeys_errand
    (done : (childKeys framework.logging draft pending).Gives around stored next) :
    ∃ errand, next.log = around.log ++ errand ∧ framework.Errand draft pending errand stored := by
  unfold childKeys at done
  simp only at done
  split at done
  case h_1 =>
    obtain ⟨_, _, refused, made⟩ := done.bind
    obtain ⟨-, rfl⟩ := refused.lift
    obtain ⟨rfl, rfl⟩ := made.pure
    exact ⟨[], (List.append_nil _).symm, .spared⟩
  case h_2 child refers =>
    split at done
    case isTrue one => exact relatedValue_errand one refers done
    case isFalse => exact (not_gives_throw done).elim
  case h_3 items refers =>
    split at done
    case isTrue => exact (not_gives_throw done).elim
    case isFalse many =>
      obtain ⟨keys, last, collected, made⟩ := done.bind
      obtain ⟨rfl, rfl⟩ := made.pure
      obtain ⟨served, logged, serves⟩ := relatedKeys_serves collected
      rw [← FieldValue.referents_of_list refers] at serves
      exact ⟨served, logged, .several (eq_false_of_ne_true many) serves⟩
  case h_4 => exact (not_gives_throw done).elim

/-! ## The turns of several relations -/

variable {space middle final : Workspace (Logged World)} {changed : Bool} {noted : List Pending}

theorem writeChildKeys_errand
    (done : (writeChildKeys framework.logging pending).Gives space changed final) :
    ∃ errand stored, final.log = space.log ++ errand ∧
      framework.Errand space.draft pending errand stored ∧
      final.draft.record.get? pending.property = some stored := by
  obtain ⟨stored, collected, held⟩ := writeChildKeys_stores done
  obtain ⟨errand, logged, errands⟩ := childKeys_errand collected
  exact ⟨errand, stored, logged, errands, held⟩

/-- The turns of relations that are elsewhere do not set a field. The induction is on the
relations. -/
theorem writeAllChildKeys_elsewhere (owner : Reference)
    (elsewhere : ∀ pending ∈ noted, pending.position ≠ some position)
    (done : (writeAllChildKeys framework.logging noted).Gives space changed final) :
    ∃ after, final.log = space.log ++ after ∧ after.filter (Entry.sets owner position) = [] := by
  induction noted generalizing space changed with
  | nil =>
      obtain ⟨-, rfl⟩ := done.pure
      exact ⟨[], (List.append_nil _).symm, rfl⟩
  | cons pending rest ih =>
      obtain ⟨here, others⟩ := List.forall_mem_cons.mp elsewhere
      unfold writeAllChildKeys at done
      obtain ⟨_, middle, written, remaining⟩ := done.bind
      obtain ⟨_, last, writtenRest, made⟩ := remaining.bind
      obtain ⟨-, rfl⟩ := made.pure
      obtain ⟨errand, _, toMiddle, errands, -⟩ := writeChildKeys_errand written
      obtain ⟨after, toLast, unset⟩ := ih others writtenRest
      refine ⟨errand ++ after, by rw [toLast, toMiddle, List.append_assoc], ?_⟩
      rw [List.filter_append, errands.filter_sets_eq_nil (.inl here), unset, List.append_nil]

theorem writeAllChildKeys_append {framework : Framework World} {space final : Workspace World}
    {later : List Pending}
    (done : (writeAllChildKeys framework (noted ++ later)).Gives space changed final) :
    ∃ first middle second, (writeAllChildKeys framework noted).Gives space first middle ∧
      (writeAllChildKeys framework later).Gives middle second final := by
  induction noted generalizing space changed with
  | nil => exact ⟨false, space, changed, rfl, done⟩
  | cons pending rest ih =>
      rw [List.cons_append, writeAllChildKeys] at done
      obtain ⟨here, written, head, remaining⟩ := done.bind
      obtain ⟨_, last, writtenRest, made⟩ := remaining.bind
      obtain ⟨-, rfl⟩ := made.pure
      obtain ⟨first, middle, second, toMiddle, toFinal⟩ := ih writtenRest
      refine ⟨here || first, middle, second, ?_, toFinal⟩
      exact (bind_of_ok head).trans (bind_of_ok toMiddle)

theorem writeAllChildKeys_fixes {framework : Framework World} {space : Workspace World}
    {property : String} (apart : ∀ pending ∈ noted, pending.property ≠ property) :
    (writeAllChildKeys framework noted).Keeps
      (Law.fixing fun space => space.draft.record.get? property) space := by
  apply keeps_writeAllChildKeys
  intro pending member space
  apply keeps_writeChildKeys (keeps_onPart_fixing fun _ => rfl)
  exact fun _ _ => Record.get?_put_of_ne (apart pending member) _ _ _

end Draft

/-! ## The whole call -/

/-- Those of some relations that have a turn, in which their keys are written. -/
def Mapper.turnsOf (mapper : Mapper) (noted : List Pending) : List Pending :=
  noted.filter fun noted => !mapper.skips noted.relation

/-- The call up to the turns of some relations: all are prepared for, and the keys of these are
written. -/
def Mapper.runUpTo (mapper : Mapper) (framework : Framework World) (draft : Draft)
    (around : Surroundings World) (noted : List Pending) : Workspace (Logged World) :=
  (Attempt.outcome (do
    mapper.prepare framework.logging draft.pending
    Draft.writeAllChildKeys framework.logging (mapper.turnsOf noted))
    ⟨{ draft with pending := [] }, around.unlogged⟩).2

/-- What becomes of an object that is stored as another one. -/
structure Framework.Replaced (framework : Framework World) (pending : Pending) (owner : Reference)
    (position : Nat) (child object : Reference) (key : Key) (world : World)
    (final : Workspace (Logged World)) : Prop where
  /-- The object was all that the relation referred to. -/
  alone : pending.value.bare = .object child
  /-- The field is set once, to the object that was given. -/
  set : final.log.filter (Entry.sets owner position) =
    [⟨.setField owner position (.object object), world, .ok none⟩]
  known : framework.knownKey world object = some key
  /-- With that object in the field and its key in the record, a later turn of the relation asks for
  nothing and changes nothing. -/
  rests : ∀ space : Workspace (Logged World), space.draft.key = final.draft.key →
    space.draft.record.get? pending.property = some (.key key) →
    framework.isDeleted space.world.world object = false →
    framework.knownKey space.world.world object = some key →
      Draft.writeChildKeys framework.logging { pending with value := .object object } space =
        .ok false space

namespace Mapper

variable {mapper : Mapper} {draft : Draft} {around : Surroundings World} {changed : Bool}
  {middle next ready final : Workspace (Logged World)} {earlier later : List Pending}

theorem turnsOf_append (noted others : List Pending) :
    mapper.turnsOf (noted ++ others) = mapper.turnsOf noted ++ mapper.turnsOf others :=
  List.filter_append _ _

theorem mem_turnsOf_iff {noted : List Pending} :
    pending ∈ mapper.turnsOf noted ↔ pending ∈ noted ∧ mapper.skips pending.relation = false := by
  rw [turnsOf, List.mem_filter, Bool.not_eq_true']

theorem runUpTo_eq {noted : List Pending}
    (prepared : (mapper.prepare framework.logging draft.pending).Gives
      ⟨{ draft with pending := [] }, around.unlogged⟩ () ready)
    (written : (Draft.writeAllChildKeys framework.logging (mapper.turnsOf noted)).Gives ready changed
      final) : mapper.runUpTo framework draft around noted = final := by
  rw [runUpTo, outcome, bind_of_ok prepared, written]

/-- **A successful call is made of turns**: those of the relations before a relation, its own, and
those of the relations after it. -/
theorem resolve_turns (parts : draft.pending = earlier ++ pending :: later)
    (done : (mapper.resolve framework.logging).Gives ⟨draft, around.unlogged⟩ changed final) :
    ∃ ready first second third middle next,
      (mapper.prepare framework.logging draft.pending).Gives
        ⟨{ draft with pending := [] }, around.unlogged⟩ () ready ∧
      (Draft.writeAllChildKeys framework.logging (mapper.turnsOf earlier)).Gives ready first middle ∧
      (Draft.writeAllChildKeys framework.logging (mapper.turnsOf [pending])).Gives middle second next ∧
      (Draft.writeAllChildKeys framework.logging (mapper.turnsOf later)).Gives next third final ∧
      mapper.runUpTo framework draft around earlier = middle ∧
      mapper.runUpTo framework draft around (earlier ++ [pending]) = next := by
  have waits : draft.pending ≠ [] := by
    rw [parts]
    exact List.append_ne_nil_of_right_ne_nil _ (List.cons_ne_nil _ _)
  obtain ⟨-, ready, prepared, written⟩ := resolve_parts waits done
  have turns : mapper.unskipped draft =
      mapper.turnsOf (earlier ++ [pending]) ++ mapper.turnsOf later := by
    rw [← turnsOf_append, ← List.append_cons, ← parts]
    rfl
  rw [turns] at written
  obtain ⟨_, next, third, toNext, toFinal⟩ := Draft.writeAllChildKeys_append written
  have split := toNext
  rw [turnsOf_append] at split
  obtain ⟨first, middle, second, toMiddle, turn⟩ := Draft.writeAllChildKeys_append split
  exact ⟨ready, first, second, third, middle, next, prepared, toMiddle, turn, toFinal,
    runUpTo_eq prepared toMiddle, runUpTo_eq prepared toNext⟩

/-- Preparing sets no field. -/
theorem prepare_sets_nothing (owner : Reference) (position : Nat)
    (prepared : (mapper.prepare framework.logging draft.pending).Gives
      ⟨{ draft with pending := [] }, around.unlogged⟩ () ready) :
    ready.draft.object = draft.object ∧ ready.log.filter (Entry.sets owner position) = [] := by
  have calling : Workspace.Calling framework draft draft.plan [] []
      ⟨{ draft with pending := [] }, around.unlogged⟩ := ⟨rfl, rfl, .start, rfl⟩
  have called := (prepare_leads calling).of_ok prepared
  refine ⟨called.object, List.filter_eq_nil_iff.mpr fun entry member => ?_⟩
  apply Entry.not_sets_of_hook
  apply Draft.stores_of_mem_plan
  rw [← called.requests]
  exact List.mem_map_of_mem member

/-- The turn of a relation, if it has one. -/
theorem turn_errand
    (done : (Draft.writeAllChildKeys framework.logging (mapper.turnsOf [pending])).Gives middle changed
      next) :
    ∃ errand, next.log = middle.log ++ errand ∧ (errand = [] ∨ ∃ stored,
      framework.Errand middle.draft pending errand stored ∧
        next.draft.record.get? pending.property = some stored) := by
  by_cases skipped : mapper.skips pending.relation = true
  · rw [turnsOf, List.filter_singleton, skipped] at done
    obtain ⟨-, rfl⟩ := done.pure
    exact ⟨[], (List.append_nil _).symm, .inl rfl⟩
  · rw [turnsOf, List.filter_singleton, eq_false_of_ne_true skipped] at done
    obtain ⟨_, _, written, rest⟩ := Gives.bind done
    obtain ⟨_, _, nothing, made⟩ := rest.bind
    obtain ⟨-, rfl⟩ := nothing.pure
    obtain ⟨-, rfl⟩ := made.pure
    obtain ⟨errand, stored, logged, errands, held⟩ := Draft.writeChildKeys_errand written
    exact ⟨errand, logged, .inr ⟨stored, errands, held⟩⟩

/-- **An object that is stored as another one is replaced in a relation to one object.** The requests
of a successful call are those of the relations before, those of the relation's own turn and those of
the relations after it. If the object of the relation is made persistent in that turn and another one
is given for it, the field of the owner is set to that one, once and by no other relation, and its key
is what the property holds. The field of a relation to several objects is not set at all. -/
theorem resolve_replaces (mapper : Mapper) (framework : Framework World)
    (around : Surroundings World) (parts : draft.pending = earlier ++ pending :: later)
    (located : pending.position = some position)
    (once : ∀ other ∈ earlier ++ later, other.position ≠ some position)
    (done : (mapper.loggedRun framework draft around).1 = .ok changed) :
    let final := (mapper.loggedRun framework draft around).2
    let before := (mapper.runUpTo framework draft around earlier).log
    ∃ errand after, (mapper.runUpTo framework draft around (earlier ++ [pending])).log =
        before ++ errand ∧ final.log = before ++ errand ++ after ∧
      (pending.relation.isSingle = false →
        final.log.filter (Entry.sets draft.object position) = []) ∧
      ∀ child object start, ⟨.persist child, start, .ok (some object)⟩ ∈ errand → object ≠ child →
        pending.relation.isSingle = true → ∃ key world,
          framework.Replaced pending draft.object position child object key world final ∧
          ((∀ other ∈ later, mapper.skips other.relation = false →
              other.property ≠ pending.property) →
            final.draft.record.get? pending.property = some (.key key)) := by
  intro final before
  have gives : (mapper.resolve framework.logging).Gives ⟨draft, around.unlogged⟩ changed final :=
    gives_of_outcome done
  obtain ⟨ready, _, _, _, middle, next, prepared, toMiddle, turn, toFinal, atMiddle, atNext⟩ :=
    resolve_turns parts gives
  have elsewhere {noted : List Pending} (among : noted ⊆ earlier ++ later) :
      ∀ other ∈ mapper.turnsOf noted, other.position ≠ some position :=
    fun other member => once other (among (mem_turnsOf_iff.mp member).1)
  obtain ⟨sameObject, unsetReady⟩ := prepare_sets_nothing draft.object position prepared
  obtain ⟨first, loggedMiddle, unsetFirst⟩ := Draft.writeAllChildKeys_elsewhere draft.object
    (elsewhere (List.subset_append_left _ _)) toMiddle
  obtain ⟨errand, loggedNext, went⟩ := turn_errand turn
  obtain ⟨after, loggedFinal, unsetAfter⟩ := Draft.writeAllChildKeys_elsewhere draft.object
    (elsewhere (List.subset_append_right _ _)) toFinal
  have settings : final.log.filter (Entry.sets draft.object position) =
      errand.filter (Entry.sets draft.object position) := by
    rw [loggedFinal, loggedNext, loggedMiddle]
    simp only [List.filter_append, unsetReady, unsetFirst, unsetAfter, List.nil_append,
      List.append_nil]
  have atStart : before = middle.log := congrArg Workspace.log atMiddle
  refine ⟨errand, after, ?_, ?_, ?several, ?single⟩
  · rw [atNext, loggedNext, atStart]
  · rw [loggedFinal, loggedNext, atStart]
  case several =>
    intro several
    rw [settings]
    rcases went with rfl | ⟨stored, errands, -⟩
    · rfl
    · exact errands.filter_sets_eq_nil (.inr several)
  case single =>
    intro child object start given other one
    rcases went with rfl | ⟨stored, errands, held⟩
    · exact (List.not_mem_nil given).elim
    have toMiddle := (Draft.writeAllChildKeys_keeps.of_ok toMiddle).2
    have toNext := (Draft.writeAllChildKeys_keeps.of_ok turn).2
    have continues := toNext.trans (Draft.writeAllChildKeys_keeps.of_ok toFinal).2
    obtain ⟨alone, key, world, set, known, below, rfl⟩ := errands.replaces one located given other
    rw [toMiddle.object.trans sameObject] at set
    refine ⟨key, world, ⟨alone, settings.trans set, known, ?_⟩, ?_⟩
    · intro space sameKey held there known
      rw [← continues.key, ← sameKey] at below
      exact Draft.writeChildKeys_of_known one rfl held there known below
    · intro apart
      have kept := (Draft.writeAllChildKeys_fixes fun other member =>
        apart other (mem_turnsOf_iff.mp member).1 (mem_turnsOf_iff.mp member).2).of_ok toFinal
      exact kept.trans held

end Mapper

/-! ## A book that is stored as a copy, as an example -/

def bookCopy : Reference :=
  ⟨⟨3⟩, "Book"⟩

/-- A framework with one library, that manages no object that it is given, and stores a copy in its
place. Its world is the value of the library's one relation. -/
def copyingFramework : Framework FieldValue where
  fieldValue world _ position := .ok (if position = 0 then .text "central" else world)
  knownKey _ object := if object = bookCopy then some bookKey else none
  isDeleted _ _ := false
  isDetached _ _ := false
  isManaged _ _ := false
  setField _ _ value := set value
  persist _ := pure bookCopy
  flush _ := pure ()

def latestField : Field where
  name := "latest"
  type := .object "Book"
  relation := some (.single "Book")

/-- A class of libraries that refer to their latest book only. -/
def latestClass : Schema :=
  { libraryClass with
    fields := [{ name := "name", type := .string, isPrimaryKey := true }, latestField] }

def latestMapper : Mapper where
  settings := {}
  schema? name := if name = "Library" then some latestClass else none

/-- The latest book of a library as it is noted. -/
def notedLatest : Pending :=
  ⟨latestField, .single "Book", some 1, "latest", .object book⟩

/-- A new library once its fields were filled. -/
def libraryWithLatest : Draft where
  object := ⟨⟨2⟩, "Library"⟩
  schema := latestClass
  operation := .insert
  record := ⟨library, [⟨"latest", .null, true⟩]⟩
  keyOrigin := some .derived
  pending := [notedLatest]

/-- A new library once its fields were filled: its book has no key yet. -/
def libraryWithNewBook : Draft :=
  { libraryWithBooks with
    record := ⟨library, [⟨"books", .ofKeys [], true⟩]⟩
    keyOrigin := some .derived }

/-- The library once its fields were filled for a change to its record, which holds the key of the
copy. -/
def libraryWithCopiedBook : Draft :=
  { libraryWithBooks with
    operation := .update
    record := ⟨library, [⟨"books", .ofKeys [bookKey], true⟩]⟩ }

namespace Mapper

/-- The copy takes the place of the latest book of a new library, and the library holds its key. -/
theorem resolve_replaces_latest :
    ∃ opened final world,
      latestMapper.insert libraryWithLatest.object = .ok opened ∧
      latestMapper.fillFields (copyingFramework.knownKey (.object book))
        (copyingFramework.fieldValue (.object book) libraryWithLatest.object) [0, 1] opened =
          .ok () libraryWithLatest ∧
      latestMapper.loggedRun copyingFramework libraryWithLatest ⟨{}, .object book⟩ =
        (.ok true, final) ∧
      copyingFramework.Replaced notedLatest libraryWithLatest.object 1 book bookCopy bookKey world
        final ∧
      final.draft.record.get? "latest" = some (.key bookKey) ∧
      final.forgetful.world = .object bookCopy := by
  have done : (latestMapper.loggedRun copyingFramework libraryWithLatest ⟨{}, .object book⟩).1 =
    .ok true := rfl
  obtain ⟨errand, after, turn, -, -, single⟩ := resolve_replaces latestMapper copyingFramework
    ⟨{}, .object book⟩ (List.nil_append [notedLatest]).symm rfl (List.forall_mem_nil _) done
  have asked : [⟨.persist book, .object book, .ok (some bookCopy)⟩,
      ⟨.setField libraryWithLatest.object 1 (.object bookCopy), .object book, .ok none⟩] = errand :=
    (List.cons.inj turn).2
  have given : ⟨.persist book, .object book, .ok (some bookCopy)⟩ ∈ errand :=
    asked ▸ List.mem_cons_self
  obtain ⟨key, world, replaced, held⟩ := single book bookCopy _ given (by decide) rfl
  obtain rfl : bookKey = key := Option.some.inj replaced.known
  exact ⟨_, _, world, rfl, rfl, rfl, replaced, held (List.forall_mem_nil _), rfl⟩

/-- A new library whose one book is stored as the copy: its books go on to hold the original,
although the library holds the key of the copy. When the library is saved again the original is
stored once more. -/
theorem not_resolve_replaces_books :
    ∃ opened final reopened last,
      libraryMapper.insert libraryWithNewBook.object = .ok opened ∧
      libraryMapper.fillFields (copyingFramework.knownKey (.list [.object book]))
        (copyingFramework.fieldValue (.list [.object book]) libraryWithNewBook.object) [0, 1]
          opened = .ok () libraryWithNewBook ∧
      libraryMapper.loggedRun copyingFramework libraryWithNewBook ⟨{}, .list [.object book]⟩ =
        (.ok true, final) ∧
      ⟨.persist book, .list [.object book], .ok (some bookCopy)⟩ ∈ final.log ∧ bookCopy ≠ book ∧
      final.log.filter (Entry.sets libraryWithNewBook.object 1) = [] ∧
      final.draft.record.get? "books" = some (.ofKeys [bookKey]) ∧
      copyingFramework.fieldValue final.forgetful.world libraryWithNewBook.object 1 =
        .ok (.list [.object book]) ∧
      libraryMapper.update libraryWithNewBook.object final.draft.record = .ok reopened ∧
      libraryMapper.fillFields (copyingFramework.knownKey final.forgetful.world)
        (copyingFramework.fieldValue final.forgetful.world libraryWithNewBook.object) [0, 1]
          reopened = .ok () libraryWithCopiedBook ∧
      libraryMapper.loggedRun copyingFramework libraryWithCopiedBook final.forgetful.surroundings =
        (.ok false, last) ∧
      ⟨.persist book, .list [.object book], .ok (some bookCopy)⟩ ∈ last.log := by
  obtain ⟨final, done, asked, unset, left, held⟩ : ∃ final,
      libraryMapper.loggedRun copyingFramework libraryWithNewBook ⟨{}, .list [.object book]⟩ =
        (.ok true, final) ∧
      ⟨.persist book, .list [.object book], .ok (some bookCopy)⟩ ∈ final.log ∧
      final.log.filter (Entry.sets libraryWithNewBook.object 1) = [] ∧
      final.forgetful.surroundings =
        ⟨{ parents := [(book.id, library)] }, .list [.object book]⟩ ∧
      final.draft.record = libraryWithCopiedBook.record :=
    ⟨_, rfl, List.mem_cons_of_mem _ List.mem_cons_self, rfl, rfl, rfl⟩
  have world : final.forgetful.world = .list [.object book] := congrArg Surroundings.world left
  refine ⟨{ libraryWithBooks with record := ⟨⟨[], "Library", none⟩, []⟩, pending := [] }, final,
    { libraryWithCopiedBook with pending := [] }, ?_⟩
  rw [left, world, held]
  exact ⟨_, rfl, rfl, done, asked, by decide, unset, rfl, rfl, rfl, rfl, rfl,
    List.mem_cons_of_mem _ List.mem_cons_self⟩

end Mapper

end RecordMapping
