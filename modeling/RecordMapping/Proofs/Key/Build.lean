import RecordMapping.Key.Build
import RecordMapping.Proofs.Outcome

/-!
# Built keys

A key that is built below a parent has exactly that parent, and the kind and the identifier that
were asked for.
-/

namespace RecordMapping.Key

variable {kind : String} {key parent : Key} {ancestors : List Ancestor}
  {identifier : Option Identifier}

theorem lineage?_eq_some_iff :
    parent.lineage? = some ancestors ↔ parent? ⟨ancestors, kind, identifier⟩ = some parent := by
  obtain ⟨above, parentKind, _ | parentIdentifier⟩ := parent
  · simp only [lineage?, Option.map_none, reduceCtorEq, false_iff, parent?]
    split <;> simp
  · simp only [lineage?, Option.map_some, Option.some.injEq, parent?]
    constructor
    · rintro rfl
      rfl
    · intro same
      cases ancestors with
      | nil => contradiction
      | cons nearest rest =>
          obtain ⟨rfl, rfl, known⟩ := Key.mk.inj (Option.some.inj same)
          obtain rfl := Option.some.inj known
          rfl

theorem lineageUnder_eq_ok_iff {parent : Option Key} :
    lineageUnder parent = .ok ancestors ↔ parent? ⟨ancestors, kind, identifier⟩ = parent := by
  cases parent with
  | none => cases ancestors <;> simp [lineageUnder, parent?]
  | some parent =>
      rw [← lineage?_eq_some_iff, lineageUnder]
      split
      case h_1 missing => simp [missing]
      case h_2 lineage found => simp [found]

theorem incomplete_ok {parent : Option Key} (built : incomplete kind parent = .ok key) :
    key.kind = kind ∧ key.parent? = parent ∧ key.identifier = none := by
  simp only [incomplete, bind_eq_ok_iff] at built
  obtain ⟨-, -, ancestors, found, made⟩ := built
  obtain rfl := Except.ok.inj made
  exact ⟨rfl, lineageUnder_eq_ok_iff.mp found, rfl⟩

theorem movedUnder_ok {moved : Key} (built : key.movedUnder parent = .ok moved) :
    moved.kind = key.kind ∧ moved.parent? = some parent ∧ moved.identifier = key.identifier := by
  simp only [movedUnder, bind_eq_ok_iff] at built
  obtain ⟨ancestors, found, made⟩ := built
  obtain rfl := Except.ok.inj made
  exact ⟨rfl, lineageUnder_eq_ok_iff.mp found, rfl⟩

theorem build_ok {parent : Option Key} {identifier : Identifier}
    (built : build parent kind identifier = .ok key) :
    key.kind = kind ∧ key.parent? = parent ∧ key.identifier = some identifier := by
  simp only [build, bind_eq_ok_iff] at built
  obtain ⟨ancestors, found, -, -, -, -, made⟩ := built
  obtain rfl := Except.ok.inj made
  exact ⟨rfl, lineageUnder_eq_ok_iff.mp found, rfl⟩

theorem incomplete_of_build {parent : Option Key} {identifier : Identifier}
    (built : build parent kind identifier = .ok key) : ∃ other, incomplete kind parent = .ok other := by
  simp only [build, bind_eq_ok_iff] at built
  obtain ⟨ancestors, found, _, valid, -, -, -⟩ := built
  refine ⟨⟨ancestors, kind, none⟩, ?_⟩
  simp only [incomplete, bind_eq_ok_iff]
  exact ⟨_, valid, ancestors, found, rfl⟩

/-- Where a key can be built below a parent, a root of the same kind and identifier can be built. -/
theorem build_none_of_build {parent : Option Key} {identifier : Identifier}
    (built : build parent kind identifier = .ok key) :
    ∃ other, build none kind identifier = .ok other := by
  simp only [build, bind_eq_ok_iff] at built
  obtain ⟨_, -, _, validKind, _, validIdentifier, -⟩ := built
  refine ⟨⟨[], kind, some identifier⟩, ?_⟩
  simp only [build, bind_eq_ok_iff]
  exact ⟨[], rfl, _, validKind, _, validIdentifier, rfl⟩

/-- A root that is moved below a parent is the key that could have been built there. -/
theorem movedUnder_eq_ok_iff_build {identifier : Identifier} {moved : Key}
    (built : build none kind identifier = .ok key) :
    key.movedUnder parent = .ok moved ↔ build (some parent) kind identifier = .ok moved := by
  simp only [build, bind_eq_ok_iff] at built
  obtain ⟨_, -, _, validKind, _, validIdentifier, made⟩ := built
  obtain rfl := Except.ok.inj made
  simp only [movedUnder, build, bind_eq_ok_iff, validKind, validIdentifier]
  simp

/-- Below a complete parent, a key of a kind that keys may have can always be built. -/
theorem incomplete_of_isComplete (valid : Kind.check kind = .ok ()) (complete : parent.isComplete) :
    ∃ key, incomplete kind (some parent) = .ok key := by
  obtain ⟨identifier, known⟩ := Option.isSome_iff_exists.mp complete
  refine ⟨⟨⟨parent.kind, identifier⟩ :: parent.ancestors, kind, none⟩, ?_⟩
  simp only [incomplete, lineageUnder, lineage?, valid, known, Option.map_some]
  rfl

theorem movedUnder_of_isComplete (key : Key) (complete : parent.isComplete) :
    ∃ moved, key.movedUnder parent = .ok moved := by
  obtain ⟨identifier, known⟩ := Option.isSome_iff_exists.mp complete
  refine ⟨⟨⟨parent.kind, identifier⟩ :: parent.ancestors, key.kind, key.identifier⟩, ?_⟩
  simp only [movedUnder, lineageUnder, lineage?, known, Option.map_some]
  rfl

theorem hasParent_eq_isSome (key : Key) : key.hasParent = key.parent?.isSome := by
  unfold hasParent parent?
  split <;> simp_all

theorem parent?_eq_none (rootless : ¬ key.hasParent = true) : key.parent? = none := by
  rw [hasParent_eq_isSome, Option.not_isSome_iff_eq_none] at rootless
  exact rootless

end RecordMapping.Key
