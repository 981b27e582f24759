import RecordMapping.Key.Build
import RecordMapping.Proofs.Outcome

/-!
# Well-formed keys

The type of keys already says that a path has a last level and that all levels above it are
complete. A key is well formed when, besides, each level has a kind that keys may have, and no
number that is not positive and no empty name. `Key.ofPath_eq_ok_iff` says that reading a path
accepts exactly the paths of such keys.
-/

namespace RecordMapping

/-- The kinds that keys may have. -/
def Kind.IsValid (kind : String) : Prop :=
  kind ≠ "" ∧ Kind.isReserved kind = false

/-- The identifiers that entities may have. -/
def Identifier.IsValid : Identifier → Prop
  | .id value => 0 < value
  | .name value => value ≠ ""

instance (kind : String) : Decidable (Kind.IsValid kind) :=
  inferInstanceAs (Decidable (_ ∧ _))

instance : (identifier : Identifier) → Decidable identifier.IsValid
  | .id value => inferInstanceAs (Decidable (0 < value))
  | .name value => inferInstanceAs (Decidable (value ≠ ""))

/-- The levels that paths may have. -/
structure Segment.IsValid (segment : Segment) : Prop where
  kind : Kind.IsValid segment.kind
  identifier : ∀ identifier ∈ segment.identifier, identifier.IsValid

theorem Segment.isValid_iff {segment : Segment} :
    segment.IsValid ↔ Kind.IsValid segment.kind ∧ ∀ value ∈ segment.identifier, value.IsValid :=
  ⟨fun valid => ⟨valid.kind, valid.identifier⟩, fun valid => ⟨valid.1, valid.2⟩⟩

instance (segment : Segment) : Decidable segment.IsValid :=
  decidable_of_iff' _ Segment.isValid_iff

/-- A key each of whose levels is valid. -/
def Key.IsWellFormed (key : Key) : Prop :=
  ∀ segment ∈ key.path, segment.IsValid

instance (key : Key) : Decidable key.IsWellFormed :=
  inferInstanceAs (Decidable (∀ segment ∈ key.path, segment.IsValid))

theorem Kind.check_eq_ok_iff {kind : String} : Kind.check kind = .ok () ↔ Kind.IsValid kind := by
  unfold Kind.check Kind.IsValid
  split
  case isTrue empty => simp [String.isEmpty_iff.mp empty]
  case isFalse inhabited =>
    rw [String.isEmpty_iff] at inhabited
    split <;> simp_all

theorem Identifier.check_eq_ok_iff {kind : String} {identifier : Identifier} :
    identifier.check kind = .ok () ↔ identifier.IsValid := by
  cases identifier with
  | id value =>
      by_cases positive : 0 < value
      · simp [check, IsValid, positive, Int64.not_le.mpr positive]
      · simp [check, IsValid, positive, Int64.not_lt.mp positive]
  | name value =>
      by_cases empty : value = ""
      · simp [check, IsValid, empty]
      · simp [check, IsValid, empty, String.isEmpty_iff]

theorem Segment.check_eq_ok_iff {segment : Segment} :
    segment.check = .ok () ↔ segment.IsValid := by
  obtain ⟨kind, identifier⟩ := segment
  rw [Segment.isValid_iff, Segment.check, check_bind_eq_ok_iff, ← Kind.check_eq_ok_iff]
  apply and_congr_right
  intro _
  rcases identifier with _ | value | value
  · simp
  · by_cases positive : 0 < value
    · simp [Identifier.IsValid, positive, Int64.not_le.mpr positive, pure, Except.pure]
    · simp [Identifier.IsValid, positive, Int64.not_lt.mp positive]
  · by_cases empty : value = ""
    · simp [Identifier.IsValid, empty]
    · simp [Identifier.IsValid, empty, String.isEmpty_iff, pure, Except.pure]

theorem Ancestor.segment_injective : Function.Injective Ancestor.segment := by
  intro first second same
  obtain ⟨kind, identifier⟩ := Segment.mk.inj same
  rw [Ancestor.mk.injEq]
  exact ⟨kind, Option.some.inj identifier⟩

namespace Key

theorem path_eq (key : Key) :
    key.path = (key.ancestors.map Ancestor.segment).reverse ++ [key.last] :=
  List.reverse_cons

theorem ancestorsOf_eq_ok_iff {levels : List Segment} {ancestors : List Ancestor} :
    ancestorsOf levels = .ok ancestors ↔ levels = ancestors.map Ancestor.segment := by
  induction levels generalizing ancestors with
  | nil => cases ancestors <;> simp [ancestorsOf]
  | cons level rest ih =>
      obtain ⟨kind, _ | identifier⟩ := level
      · cases ancestors <;> simp [ancestorsOf, Ancestor.segment]
      · rw [ancestorsOf, bind_eq_ok_iff]
        simp only [ih]
        constructor
        · rintro ⟨above, rfl, built⟩
          obtain rfl := Except.ok.inj built
          rfl
        · intro levels
          cases ancestors with
          | nil => contradiction
          | cons first above =>
              obtain ⟨same, rfl⟩ := List.cons.inj levels
              obtain ⟨rfl, known⟩ := Segment.mk.inj same
              obtain rfl := Option.some.inj known
              exact ⟨above, rfl, rfl⟩

theorem forM_check_eq_ok_iff {path : List Segment} :
    path.forM Segment.check = .ok () ↔ ∀ segment ∈ path, segment.IsValid := by
  induction path with
  | nil => simp [pure, Except.pure]
  | cons first rest ih =>
      change (first.check >>= fun _ => rest.forM Segment.check) = .ok () ↔ _
      rw [check_bind_eq_ok_iff, List.forall_mem_cons, ih, Segment.check_eq_ok_iff]

/-- **A path is accepted exactly when it is the path of a well-formed key.** -/
theorem ofPath_eq_ok_iff {path : List Segment} {key : Key} :
    ofPath path = .ok key ↔ path = key.path ∧ key.IsWellFormed := by
  rcases path.eq_nil_or_concat with rfl | ⟨levels, last, rfl⟩
  · simp [ofPath, path_eq]
  · simp only [ofPath, List.concat_eq_append, List.getLast?_concat, List.dropLast_concat]
    rw [bind_eq_ok_iff]
    simp only [check_bind_eq_ok_iff, ancestorsOf_eq_ok_iff, forM_check_eq_ok_iff]
    constructor
    · rintro ⟨ancestors, rfl, valid, built⟩
      obtain rfl := Except.ok.inj built
      have same : ancestors.map Ancestor.segment ++ [last] =
          Key.path ⟨ancestors.reverse, last.kind, last.identifier⟩ := by
        rw [path_eq, List.map_reverse, List.reverse_reverse]
        rfl
      exact ⟨same, fun segment member => valid segment (same ▸ member)⟩
    · rintro ⟨same, wellFormed⟩
      rw [IsWellFormed, ← same] at wellFormed
      rw [path_eq] at same
      obtain ⟨levelsEq, lastEq⟩ := List.append_inj' same rfl
      obtain rfl := List.singleton_inj.mp lastEq
      refine ⟨key.ancestors.reverse, by rw [levelsEq, List.map_reverse], wellFormed, ?_⟩
      rw [List.reverse_reverse]
      rfl

end Key

end RecordMapping
