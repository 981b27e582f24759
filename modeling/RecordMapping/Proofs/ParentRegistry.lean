import RecordMapping.ParentRegistry

/-!
# Entries of the registry of parents

A note in the registry changes what is known of one object and leaves all others as they were.
Where objects are noted under one key, `ParentRegistry.Gains` says what is left: no entry but those
of the noted objects changes, and a changed entry names that key.
-/

namespace RecordMapping.ParentRegistry

variable {registry : ParentRegistry} {child other : Identity} {parent : Key}

theorem lookup_filter_of_ne {entries : List (Identity × Key)} (different : other ≠ child) :
    (entries.filter fun entry => entry.1 ≠ child).lookup other = entries.lookup other := by
  induction entries with
  | nil => rfl
  | cons entry rest ih =>
      obtain ⟨object, key⟩ := entry
      by_cases same : object = child
      · have passed : (other == object) = false := by simp [same, different]
        rw [List.filter_cons_of_neg (by simp [same]), ih, List.lookup_cons, passed]
      · rw [List.filter_cons_of_pos (by simp [same]), List.lookup_cons, List.lookup_cons, ih]

theorem parent?_announce_self : (registry.announce child parent).parent? child = some parent :=
  List.lookup_cons_self

theorem parent?_announce_of_ne (different : other ≠ child) :
    (registry.announce child parent).parent? other = registry.parent? other := by
  have passed : (other == child) = false := by simp [different]
  rw [parent?, announce, List.lookup_cons, passed]
  exact lookup_filter_of_ne different

/-- A registry that lost the parent of one object, if it had it, and nothing else. -/
structure LosesOnly (registry left : ParentRegistry) (child : Identity) : Prop where
  gone : left.parent? child = none
  others : ∀ other, other ≠ child → left.parent? other = registry.parent? other
  roots : left.roots = registry.roots

theorem losesOnly_forgetParent (registry : ParentRegistry) (child : Identity) :
    registry.LosesOnly (registry.forgetParent child) child := by
  refine ⟨?_, fun other different => lookup_filter_of_ne different, rfl⟩
  unfold forgetParent parent?
  rw [List.lookup_eq_none_iff]
  intro entry kept
  have different : entry.1 ≠ child := by simpa using (List.mem_filter.mp kept).2
  simpa using different.symm

theorem parent?_markRoot : (registry.markRoot child).parent? other = registry.parent? other := by
  unfold markRoot
  split <;> rfl

theorem isRoot_markRoot_self : (registry.markRoot child).isRoot child = true := by
  unfold markRoot
  split
  case isTrue marked => exact marked
  case isFalse => simp [isRoot]

theorem isRoot_markRoot_of_ne (different : other ≠ child) :
    (registry.markRoot child).isRoot other = registry.isRoot other := by
  unfold markRoot
  split
  case isTrue => rfl
  case isFalse => simp [isRoot, different]

/-- What is left of a registry once some objects were noted, under a key or as owned by none. -/
structure Gains (key : Key) (noted : Identity → Prop) (before after : ParentRegistry) : Prop where
  parent : ∀ object, after.parent? object = before.parent? object ∨
    noted object ∧ after.parent? object = some key
  root : ∀ object, after.isRoot object = before.isRoot object ∨
    noted object ∧ after.isRoot object = true

variable {key : Key} {noted : Identity → Prop} {before middle after : ParentRegistry}
  {object : Identity}

theorem Gains.refl : Gains key noted before before :=
  ⟨fun _ => .inl rfl, fun _ => .inl rfl⟩

theorem Gains.trans (first : Gains key noted before middle) (second : Gains key noted middle after) :
    Gains key noted before after := by
  constructor
  · intro object
    rcases second.parent object with same | gained
    · rw [same]
      exact first.parent object
    · exact .inr gained
  · intro object
    rcases second.root object with same | gained
    · rw [same]
      exact first.root object
    · exact .inr gained

theorem Gains.announce (among : noted child) : Gains key noted before (before.announce child key) := by
  refine ⟨fun object => ?_, fun _ => .inl rfl⟩
  by_cases same : object = child
  · subst same
    exact .inr ⟨among, parent?_announce_self⟩
  · exact .inl (parent?_announce_of_ne same)

theorem Gains.markRoot (among : noted child) : Gains key noted before (before.markRoot child) := by
  refine ⟨fun _ => .inl parent?_markRoot, fun object => ?_⟩
  by_cases same : object = child
  · subst same
    exact .inr ⟨among, isRoot_markRoot_self⟩
  · exact .inl (isRoot_markRoot_of_ne same)

/-- An entry that names the key is never lost to a later one. -/
theorem Gains.parent?_eq (gains : Gains key noted before after)
    (announced : before.parent? object = some key) : after.parent? object = some key := by
  rcases gains.parent object with same | ⟨-, gained⟩
  · rw [same]
    exact announced
  · exact gained

theorem Gains.unchanged (gains : Gains key noted before after) (foreign : ¬ noted object) :
    after.parent? object = before.parent? object ∧ after.isRoot object = before.isRoot object := by
  constructor
  · rcases gains.parent object with same | ⟨among, -⟩
    · exact same
    · exact (foreign among).elim
  · rcases gains.root object with same | ⟨among, -⟩
    · exact same
    · exact (foreign among).elim

end RecordMapping.ParentRegistry
