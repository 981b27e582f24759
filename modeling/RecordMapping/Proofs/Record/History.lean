import Mathlib.Data.Finset.Card
import Mathlib.Data.List.Induction
import RecordMapping.Proofs.Key.Build
import RecordMapping.Proofs.Outcome
import RecordMapping.Proofs.Record

/-!
# Records and their history

A record that was just made holds no properties, so what it holds later is told by the calls that changed
it. `RecordCall.Leaves` says which properties calls leave and `RecordCall.Adds` when they were added,
both without a look at any record. A record is the map of the properties that its calls leave, in the
order in which they were added (`Record.mirrors_history`).
-/

namespace RecordMapping

/-- A call that changes a record. -/
inductive RecordCall where
  /-- Sets a property, which is indexed if it is to be and its value can be searched for. -/
  | put (name : String) (value : Value) (indexed : Bool)
  | take (name : String)
  | rekey (key : Key)

namespace RecordCall

variable {calls : List RecordCall} {call : RecordCall} {name : String} {value : Value} {indexed : Bool}
  {position : Nat}

/-- The record that a call leaves. -/
def outcome (record : Record) : RecordCall → Outcome Record
  | put name value indexed => .ok (record.put name value indexed)
  | take name => .ok (record.take name).2
  | rekey key => record.rekey key

/-- The record that calls leave, if each of them succeeds. -/
def run (record : Record) (calls : List RecordCall) : Outcome Record :=
  calls.foldlM outcome record

theorem run_concat_eq_ok_iff {start record : Record} :
    run start (calls ++ [call]) = .ok record ↔
      ∃ before, run start calls = .ok before ∧ outcome before call = .ok record := by
  simp only [run, List.foldlM_append, bind_eq_ok_iff, List.foldlM_cons, List.foldlM_nil, pure,
    Except.pure, Except.ok.injEq, exists_eq_right]

/-! ## What calls leave -/

/-- The calls that set or remove a property. -/
def Concerns (name : String) : RecordCall → Prop
  | put other _ _ => other = name
  | take other => other = name
  | rekey _ => False

/-- Whether the last call that concerns a property sets it, to this value. -/
def Leaves (calls : List RecordCall) (name : String) (value : Value) (indexed : Bool) : Prop :=
  ∃ before after, calls = before ++ put name value indexed :: after ∧
    ∀ call ∈ after, ¬ call.Concerns name

/-- Whether calls leave a property, with whatever value. -/
def LeavesNamed (calls : List RecordCall) (name : String) : Prop :=
  ∃ value indexed, Leaves calls name value indexed

/-- Whether the call at a position sets a property that is not there before, and no later call
removes it. -/
def Adds (calls : List RecordCall) (name : String) (position : Nat) : Prop :=
  ∃ before value indexed after, calls = before ++ put name value indexed :: after ∧
    before.length = position ∧ ¬ LeavesNamed before name ∧ take name ∉ after

/-- Whether a property was added before another one. -/
def AddsBefore (calls : List RecordCall) (first second : String) : Prop :=
  ∃ earlier later, Adds calls first earlier ∧ Adds calls second later ∧ earlier < later

/-- A list with one more item at its end is split before that item, or where it was split before. -/
theorem concat_eq_append_cons_iff {α : Type} {items before after : List α} {last item : α} :
    items ++ [last] = before ++ item :: after ↔
      (after = [] ∧ before = items ∧ item = last) ∨
        ∃ rest, after = rest ++ [last] ∧ items = before ++ item :: rest := by
  constructor
  · intro same
    rcases after.eq_nil_or_concat with rfl | ⟨rest, finish, rfl⟩
    · obtain ⟨rfl, single⟩ := List.append_inj' same rfl
      exact .inl ⟨rfl, rfl, (List.singleton_inj.mp single).symm⟩
    · rw [List.concat_eq_append, ← List.cons_append, ← List.append_assoc] at same
      obtain ⟨rfl, single⟩ := List.append_inj' same rfl
      rw [List.concat_eq_append, List.singleton_inj.mp single]
      exact .inr ⟨rest, rfl, rfl⟩
  · intro split
    rcases split with ⟨rfl, rfl, rfl⟩ | ⟨rest, rfl, rfl⟩
    · rfl
    · rw [List.append_assoc, List.cons_append]

theorem not_leaves_nil : ¬ Leaves [] name value indexed := by
  intro leaves
  obtain ⟨before, after, empty, -⟩ := leaves
  simp at empty

theorem leaves_concat :
    Leaves (calls ++ [call]) name value indexed ↔
      call = put name value indexed ∨ Leaves calls name value indexed ∧ ¬ call.Concerns name := by
  unfold Leaves
  simp only [concat_eq_append_cons_iff]
  constructor
  · intro leaves
    obtain ⟨before, after, ⟨rfl, rfl, rfl⟩ | ⟨rest, rfl, rfl⟩, quiet⟩ := leaves
    · exact .inl rfl
    · refine .inr ⟨⟨before, rest, rfl, fun other member => ?_⟩, quiet call (by simp)⟩
      exact quiet other (List.mem_append_left _ member)
  · intro sets
    rcases sets with rfl | ⟨⟨before, after, rfl, quiet⟩, silent⟩
    · exact ⟨calls, [], .inl ⟨rfl, rfl, rfl⟩, nofun⟩
    · refine ⟨before, after ++ [call], .inr ⟨after, rfl, rfl⟩, ?_⟩
      simpa [or_imp, forall_and] using ⟨quiet, silent⟩

theorem leavesNamed_concat :
    LeavesNamed (calls ++ [call]) name ↔
      (∃ value indexed, call = put name value indexed) ∨
        LeavesNamed calls name ∧ ¬ call.Concerns name := by
  simp only [LeavesNamed, leaves_concat, exists_or, exists_and_right]

/-! ## When it was added -/

theorem adds_concat :
    Adds (calls ++ [call]) name position ↔
      Adds calls name position ∧ call ≠ take name ∨
        position = calls.length ∧ (∃ value indexed, call = put name value indexed) ∧
          ¬ LeavesNamed calls name := by
  unfold Adds
  simp only [concat_eq_append_cons_iff]
  constructor
  · intro adds
    obtain ⟨before, value, indexed, after, split, counted, fresh, kept⟩ := adds
    rcases split with ⟨rfl, rfl, rfl⟩ | ⟨rest, rfl, rfl⟩
    · exact .inr ⟨counted.symm, ⟨value, indexed, rfl⟩, fresh⟩
    · rw [List.mem_append, not_or, List.mem_singleton] at kept
      exact .inl ⟨⟨before, value, indexed, rest, rfl, counted, fresh, kept.1⟩, Ne.symm kept.2⟩
  · intro adds
    rcases adds with ⟨adds, stays⟩ | ⟨rfl, ⟨value, indexed, rfl⟩, fresh⟩
    · obtain ⟨before, value, indexed, after, rfl, counted, fresh, kept⟩ := adds
      refine ⟨before, value, indexed, after ++ [call], .inr ⟨after, rfl, rfl⟩, counted, fresh, ?_⟩
      rw [List.mem_append, not_or, List.mem_singleton]
      exact ⟨kept, stays.symm⟩
    · exact ⟨calls, value, indexed, [], .inl ⟨rfl, rfl, rfl⟩, rfl, fresh, List.not_mem_nil⟩

theorem not_adds_nil : ¬ Adds [] name position := by
  intro adds
  obtain ⟨before, value, indexed, after, empty, -⟩ := adds
  simp at empty

theorem lt_length_of_adds (adds : Adds calls name position) : position < calls.length := by
  obtain ⟨before, value, indexed, after, rfl, rfl, -⟩ := adds
  simp

/-- A call that concerns a property sets or removes it. -/
theorem concerns_iff :
    call.Concerns name ↔ (∃ value indexed, call = put name value indexed) ∨ call = take name := by
  cases call <;> simp [Concerns]

/-- What was added and not removed is there. -/
theorem leavesNamed_of_adds (adds : Adds calls name position) : LeavesNamed calls name := by
  induction calls using List.reverseRecOn with
  | nil => exact (not_adds_nil adds).elim
  | append_singleton calls call ih =>
      rw [leavesNamed_concat]
      rcases adds_concat.mp adds with ⟨adds, stays⟩ | ⟨-, sets, -⟩
      · by_cases sets : ∃ value indexed, call = put name value indexed
        · exact .inl sets
        · refine .inr ⟨ih adds, ?_⟩
          rw [concerns_iff]
          exact not_or.mpr ⟨sets, stays⟩
      · exact .inl sets

/-- What is there was added. -/
theorem exists_adds (leaves : LeavesNamed calls name) : ∃ position, Adds calls name position := by
  induction calls using List.reverseRecOn with
  | nil =>
      obtain ⟨value, indexed, leaves⟩ := leaves
      exact (not_leaves_nil leaves).elim
  | append_singleton calls call ih =>
      simp only [adds_concat]
      by_cases before : LeavesNamed calls name
      · obtain ⟨position, adds⟩ := ih before
        refine ⟨position, .inl ⟨adds, ?_⟩⟩
        rintro rfl
        rcases leavesNamed_concat.mp leaves with ⟨_, _, impossible⟩ | ⟨-, silent⟩
        · contradiction
        · exact silent rfl
      · rcases leavesNamed_concat.mp leaves with sets | ⟨there, -⟩
        · exact ⟨calls.length, .inr ⟨rfl, sets, before⟩⟩
        · exact (before there).elim

/-- A property is added once at most since it was last removed. -/
theorem adds_unique {first second : Nat} (adds : Adds calls name first)
    (again : Adds calls name second) : first = second := by
  induction calls using List.reverseRecOn with
  | nil => exact (not_adds_nil adds).elim
  | append_singleton calls call ih =>
      rcases adds_concat.mp adds with ⟨adds, -⟩ | ⟨rfl, -, fresh⟩
      · rcases adds_concat.mp again with ⟨again, -⟩ | ⟨-, -, fresh⟩
        · exact ih adds again
        · exact (fresh (leavesNamed_of_adds adds)).elim
      · rcases adds_concat.mp again with ⟨again, -⟩ | ⟨rfl, -, -⟩
        · exact (fresh (leavesNamed_of_adds again)).elim
        · rfl

theorem AddsBefore.ne {first second : String} (ordered : AddsBefore calls first second) :
    first ≠ second := by
  obtain ⟨earlier, later, adds, again, before⟩ := ordered
  intro same
  rw [adds_unique adds (same ▸ again)] at before
  exact Nat.lt_irrefl later before

/-- A call that removes neither of two properties keeps their order. -/
theorem AddsBefore.concat {first second : String} (ordered : AddsBefore calls first second)
    (firstStays : call ≠ take first) (secondStays : call ≠ take second) :
    AddsBefore (calls ++ [call]) first second := by
  obtain ⟨earlier, later, adds, again, before⟩ := ordered
  exact ⟨earlier, later, adds_concat.mpr (.inl ⟨adds, firstStays⟩),
    adds_concat.mpr (.inl ⟨again, secondStays⟩), before⟩

/-- A property that is not there is added after all that are. -/
theorem addsBefore_concat_put {first : String} (there : LeavesNamed calls first)
    (absent : ¬ LeavesNamed calls name) : AddsBefore (calls ++ [put name value indexed]) first name := by
  obtain ⟨earlier, adds⟩ := exists_adds there
  exact ⟨earlier, calls.length, adds_concat.mpr (.inl ⟨adds, nofun⟩),
    adds_concat.mpr (.inr ⟨rfl, ⟨value, indexed, rfl⟩, absent⟩), lt_length_of_adds adds⟩

end RecordCall

/-! ## What a record holds -/

open RecordCall

/-- The values that can be searched for. -/
def Value.IsIndexable (value : Value) : Prop :=
  (∀ text, value ≠ .longText text) ∧ ∀ bytes, value ≠ .blob bytes

theorem Value.isUnindexable_eq_false_iff {value : Value} :
    value.isUnindexable = false ↔ value.IsIndexable := by
  cases value <;> simp [isUnindexable, IsIndexable]

namespace Record

variable {record : Record} {calls : List RecordCall} {name : String} {value : Value} {indexed : Bool}

/-- Whether a record holds the properties that calls leave, in the order in which they were added. -/
structure Traces (record : Record) (calls : List RecordCall) : Prop where
  holds : ∀ property : Property, property ∈ record.properties ↔
    ∃ asked, Leaves calls property.name property.value asked ∧
      property.indexed = (asked && !property.value.isUnindexable)
  ordered : (record.properties.map Property.name).Pairwise (AddsBefore calls)

theorem Traces.distinct (traces : record.Traces calls) :
    (record.properties.map Property.name).Nodup :=
  traces.ordered.imp AddsBefore.ne

theorem Traces.mem_names_iff (traces : record.Traces calls) :
    name ∈ record.properties.map Property.name ↔ LeavesNamed calls name := by
  rw [List.mem_map]
  constructor
  · intro named
    obtain ⟨property, member, rfl⟩ := named
    obtain ⟨asked, leaves, -⟩ := (traces.holds property).mp member
    exact ⟨property.value, asked, leaves⟩
  · intro left
    obtain ⟨value, asked, leaves⟩ := left
    exact ⟨⟨name, value, asked && !value.isUnindexable⟩,
      (traces.holds _).mpr ⟨asked, leaves, rfl⟩, rfl⟩

theorem traces_nil (empty : record.properties = []) : record.Traces [] := by
  refine ⟨fun property => ?_, by simp [empty]⟩
  simp [empty, not_leaves_nil]

/-- Setting a property keeps the order of those that are there, and adds one that is not at the end. -/
theorem Traces.put (traces : record.Traces calls) :
    (record.put name value indexed).Traces (calls ++ [.put name value indexed]) := by
  have kept : (record.properties.map Property.name).Pairwise
      (AddsBefore (calls ++ [.put name value indexed])) :=
    traces.ordered.imp fun ordered => ordered.concat nofun nofun
  refine ⟨fun property => ?_, ?_⟩
  · have changed : property ∈ (record.put name value indexed).properties ↔
        property = ⟨name, value, indexed && !value.isUnindexable⟩ ∨
          property ∈ record.properties ∧ property.name ≠ name := Property.mem_put_iff traces.distinct
    rw [changed, traces.holds]
    obtain ⟨own, held, place⟩ := property
    simp only [leaves_concat, Concerns, Property.mk.injEq, RecordCall.put.injEq]
    constructor
    · intro there
      rcases there with ⟨rfl, rfl, rfl⟩ | ⟨⟨asked, leaves, same⟩, apart⟩
      · exact ⟨indexed, .inl ⟨rfl, rfl, rfl⟩, rfl⟩
      · exact ⟨asked, .inr ⟨leaves, Ne.symm apart⟩, same⟩
    · intro left
      obtain ⟨asked, ⟨rfl, rfl, rfl⟩ | ⟨leaves, apart⟩, same⟩ := left
      · exact .inl ⟨rfl, rfl, same⟩
      · exact .inr ⟨⟨asked, leaves, same⟩, Ne.symm apart⟩
  · have names : (record.put name value indexed).properties.map Property.name =
        if name ∈ record.properties.map Property.name then record.properties.map Property.name
        else record.properties.map Property.name ++ [name] := Property.names_put_eq _ _
    rw [names]
    split
    case isTrue => exact kept
    case isFalse absent =>
      rw [List.pairwise_append]
      refine ⟨kept, List.pairwise_singleton _ _, fun first member second last => ?_⟩
      obtain rfl := List.mem_singleton.mp last
      rw [traces.mem_names_iff] at member absent
      exact addsBefore_concat_put member absent

theorem take_eq (distinct : (record.properties.map Property.name).Nodup) (name : String) :
    (record.take name).2 = { record with
      properties := record.properties.filter fun property => property.name ≠ name } := by
  change record.erase name = _
  rw [erase, Property.erase_eq_filter distinct]

theorem Traces.take (traces : record.Traces calls) :
    (record.take name).2.Traces (calls ++ [.take name]) := by
  rw [take_eq traces.distinct]
  refine ⟨fun property => ?_, ?_⟩
  · simp only [List.mem_filter, decide_eq_true_eq, traces.holds, leaves_concat, Concerns, reduceCtorEq,
      false_or]
    constructor
    · intro there
      obtain ⟨⟨asked, leaves, same⟩, apart⟩ := there
      exact ⟨asked, ⟨leaves, Ne.symm apart⟩, same⟩
    · intro left
      obtain ⟨asked, ⟨leaves, apart⟩, same⟩ := left
      exact ⟨⟨asked, leaves, same⟩, Ne.symm apart⟩
  · have fewer : ((record.properties.filter fun property => property.name ≠ name).map
        Property.name).Sublist (record.properties.map Property.name) := List.filter_sublist.map _
    have apart : ∀ other ∈ (record.properties.filter fun property => property.name ≠ name).map
        Property.name, other ≠ name := by
      intro other member
      obtain ⟨property, kept, rfl⟩ := List.mem_map.mp member
      exact of_decide_eq_true (List.mem_filter.mp kept).2
    have stays {other : String} (different : other ≠ name) :
        RecordCall.take name ≠ .take other := by simpa using Ne.symm different
    exact (traces.ordered.sublist fewer).imp_of_mem fun first second ordered =>
      ordered.concat (stays (apart _ first)) (stays (apart _ second))

theorem Traces.rekey {key : Key} {after : Record} (traces : record.Traces calls)
    (moved : record.rekey key = .ok after) : after.Traces (calls ++ [.rekey key]) := by
  obtain ⟨-, rfl⟩ := rekey_eq_ok_iff.mp moved
  refine ⟨fun property => ?_, ?_⟩
  · simp only [traces.holds, leaves_concat, Concerns, reduceCtorEq, false_or, not_false_eq_true, and_true]
  · exact traces.ordered.imp fun ordered => ordered.concat nofun nofun

/-! ## Records that were made and changed -/

/-- Whether a record is one that is made without properties, around a key of a kind or for the kind
itself. -/
def IsMade (record : Record) (kind : String) : Prop :=
  (∃ key : Key, key.kind = kind ∧ record = ofKey key) ∨ ofKind kind = .ok record

variable {kind : String} {start : Record}

theorem IsMade.properties_eq (made : record.IsMade kind) : record.properties = [] := by
  rcases made with ⟨key, -, rfl⟩ | made
  · rfl
  · obtain ⟨key, -, same⟩ := bind_eq_ok_iff.mp made
    cases same
    rfl

theorem IsMade.kind_eq (made : record.IsMade kind) : record.kind = kind := by
  rcases made with ⟨key, same, rfl⟩ | made
  · exact same
  · obtain ⟨key, keyed, same⟩ := bind_eq_ok_iff.mp made
    cases same
    exact (Key.incomplete_ok (mapError_eq_ok_iff.mp keyed)).1

theorem traces_of_run (empty : start.properties = []) (done : RecordCall.run start calls = .ok record) :
    record.Traces calls := by
  induction calls using List.reverseRecOn generalizing record with
  | nil =>
      cases done
      exact traces_nil empty
  | append_singleton calls call ih =>
      obtain ⟨before, first, last⟩ := run_concat_eq_ok_iff.mp done
      have traces := ih first
      cases call with
      | put name value indexed =>
          cases last
          exact traces.put
      | take name =>
          cases last
          exact traces.take
      | rekey key => exact traces.rekey last

theorem kind_of_run (done : RecordCall.run start calls = .ok record) : record.kind = start.kind := by
  induction calls using List.reverseRecOn generalizing record with
  | nil =>
      cases done
      rfl
  | append_singleton calls call ih =>
      obtain ⟨before, first, last⟩ := run_concat_eq_ok_iff.mp done
      rw [← ih first]
      cases call with
      | put name value indexed =>
          cases last
          rfl
      | take name =>
          cases last
          rfl
      | rekey key =>
          obtain ⟨same, rfl⟩ := rekey_eq_ok_iff.mp last
          exact same

/-- Whether a record is of a kind and is the map of the properties that calls leave. -/
structure Mirrors (record : Record) (kind : String) (calls : List RecordCall) : Prop where
  /-- No name occurs twice. -/
  distinct : (record.properties.map Property.name).Nodup
  /-- The properties that calls leave are there with their last values. They are indexed if they were
  to be and their values can be searched for. -/
  holds : ∀ name value indexed, ⟨name, value, indexed⟩ ∈ record.properties ↔
    ∃ asked, Leaves calls name value asked ∧ (indexed = true ↔ asked = true ∧ value.IsIndexable)
  /-- Each of them was added once, by a call at one place. -/
  added : ∀ name ∈ record.properties.map Property.name, ∃! position, Adds calls name position
  /-- They are in the order in which they were added. -/
  ordered : (record.properties.map Property.name).Pairwise (AddsBefore calls)
  /-- A name reads as the value that calls leave. -/
  get? : ∀ name value, record.get? name = some value ↔ ∃ asked, Leaves calls name value asked
  /-- The names are those of the properties that calls leave. -/
  has : ∀ name, record.has name = true ↔ LeavesNamed calls name
  /-- The properties out of the index are those that were not to be in it or cannot be. -/
  lacksIndex : ∀ name, record.lacksIndex name = true ↔
    ∃ value asked, Leaves calls name value asked ∧ ¬ (asked = true ∧ value.IsIndexable)
  /-- The size is the count of the names that calls leave. -/
  size : ∃ names : Finset String, (∀ name, name ∈ names ↔ LeavesNamed calls name) ∧
    record.size = names.card
  /-- The record is empty if calls leave nothing. -/
  isEmpty : record.isEmpty = true ↔ ∀ name, ¬ LeavesNamed calls name
  /-- Removing a property gives the value that calls leave, if any. -/
  taken : ∀ name value, (record.take name).1 = some value ↔ ∃ asked, Leaves calls name value asked
  /-- Nothing else changes when a property is removed. -/
  others : ∀ name, (record.take name).2 =
    { record with properties := record.properties.filter fun property => property.name ≠ name }
  /-- The record and its key are of that kind. -/
  kind_eq : record.kind = kind ∧ record.key.kind = kind
  /-- The key can be replaced by those of the same kind, which changes nothing else. -/
  rekey : ∀ key after, record.rekey key = .ok after ↔ key.kind = kind ∧ after = { record with key }

theorem Traces.mirrors (traces : record.Traces calls) (same : record.kind = kind) :
    record.Mirrors kind calls := by
  have names {name : String} : name ∈ record.properties.map Property.name ↔ LeavesNamed calls name :=
    traces.mem_names_iff
  have place {value : Value} {indexed asked : Bool} :
      indexed = (asked && !value.isUnindexable) ↔ (indexed = true ↔ asked = true ∧ value.IsIndexable) := by
    rw [← Value.isUnindexable_eq_false_iff, Bool.eq_iff_iff, Bool.and_eq_true, Bool.not_eq_true']
  have holds (name : String) (value : Value) (indexed : Bool) :
      ⟨name, value, indexed⟩ ∈ record.properties ↔ ∃ asked, Leaves calls name value asked ∧
        (indexed = true ↔ asked = true ∧ value.IsIndexable) := by
    simp only [traces.holds, place]
  have reads (name : String) (value : Value) :
      record.get? name = some value ↔ ∃ asked, Leaves calls name value asked := by
    simp only [get?_eq_some_iff traces.distinct, traces.holds]
    exact ⟨fun ⟨_, asked, leaves, _⟩ => ⟨asked, leaves⟩, fun ⟨asked, leaves⟩ => ⟨_, asked, leaves, rfl⟩⟩
  refine ⟨traces.distinct, holds, ?added, traces.ordered, reads, ?has, ?lacksIndex, ?size, ?isEmpty,
    reads, take_eq traces.distinct, ⟨same, same⟩, ?rekey⟩
  case added =>
    intro name member
    obtain ⟨position, adds⟩ := exists_adds (names.mp member)
    exact ⟨position, adds, fun other again => adds_unique again adds⟩
  case has =>
    intro name
    rw [has_iff, names]
  case lacksIndex => simp only [lacksIndex_iff, holds, Bool.false_eq_true, false_iff, implies_true]
  case size =>
    refine ⟨(record.properties.map Property.name).toFinset, fun name => ?_, ?_⟩
    · rw [List.mem_toFinset, names]
    · rw [List.toFinset_card_of_nodup traces.distinct, List.length_map, size]
  case isEmpty => simp only [isEmpty_iff, names]
  case rekey =>
    intro key after
    rw [rekey_eq_ok_iff, same]

/-- **A record is the map of what its calls leave.** However a record is made and then changed, it is of
the kind that it was made for, its properties are those that the calls leave, in the order in which they
were added, and all that can be asked of it agrees with that. -/
theorem mirrors_history (kind : String) (start record : Record) (calls : List RecordCall)
    (made : start.IsMade kind) (done : RecordCall.run start calls = .ok record) :
    record.Mirrors kind calls :=
  (traces_of_run made.properties_eq done).mirrors ((kind_of_run done).trans made.kind_eq)

/-- A book whose body was removed and set again has it last, under the key that it got in between. Its
title keeps the first place, and leaves the index once it is a long text. -/
theorem mirrors_history_book :
    let unassigned : Key := ⟨[], "Book", none⟩
    let assigned : Key := ⟨[], "Book", some (.id 7)⟩
    let calls : List RecordCall := [.put "title" (.text "Dune") true, .put "body" (.text "A") true,
      .put "title" (.longText "Dune Messiah") true, .take "body", .put "pages" (.integer 412) false,
      .rekey assigned, .put "body" (.text "B") true]
    let record : Record := ⟨assigned, [⟨"title", .longText "Dune Messiah", false⟩,
      ⟨"pages", .integer 412, false⟩, ⟨"body", .text "B", true⟩]⟩
    (ofKey unassigned).IsMade "Book" ∧ RecordCall.run (ofKey unassigned) calls = .ok record ∧
      record.Mirrors "Book" calls := by
  intro unassigned assigned calls record
  have made : (ofKey unassigned).IsMade "Book" := .inl ⟨unassigned, rfl, rfl⟩
  have done : RecordCall.run (ofKey unassigned) calls = .ok record := rfl
  exact ⟨made, done, mirrors_history "Book" (ofKey unassigned) record calls made done⟩

end Record

end RecordMapping
