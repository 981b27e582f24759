import RecordMapping.Proofs.Key.Build
import RecordMapping.Proofs.Key.Token

/-!
# The keys that can be had

Keys are checked in two places: when they are built level by level, and when a path is read. Moving a
key, completing it, and taking its parent or its root check less or nothing. Whatever these are applied
to, in whatever order, what comes out is well formed (`Key.Obtainable.isWellFormed`), and the two checks
agree: the well-formed keys are those that are built from the root down (`Key.isBuilt_iff`), and their
paths are the ones that are read.
-/

namespace RecordMapping

namespace Key

variable {key parent : Key} {kind : String} {identifier : Identifier}

/-- The keys that any composition of the operations on keys gives. -/
inductive Obtainable : Key → Prop where
  | build {parent : Option Key} {kind : String} {identifier : Identifier} {key : Key}
      (below : ∀ above, parent = some above → Obtainable above)
      (built : build parent kind identifier = .ok key) : Obtainable key
  | incomplete {parent : Option Key} {kind : String} {key : Key}
      (below : ∀ above, parent = some above → Obtainable above)
      (built : incomplete kind parent = .ok key) : Obtainable key
  | movedUnder {key parent moved : Key} (first : Obtainable key) (second : Obtainable parent)
      (built : key.movedUnder parent = .ok moved) : Obtainable moved
  | withId {key completed : Key} {id : Int64} (first : Obtainable key)
      (built : key.withId id = .ok completed) : Obtainable completed
  | parent {key above : Key} (first : Obtainable key) (taken : key.parent? = some above) :
      Obtainable above
  | root {key : Key} (first : Obtainable key) : Obtainable key.root
  | ofToken {text : String} {key : Key} (read : ofToken text = .ok key) : Obtainable key

/-- The parents that are reached from the root by building one level after another; at first there
is none. -/
inductive BuiltUp : Option Key → Prop where
  | none : BuiltUp none
  | next {parent : Option Key} {kind : String} {identifier : Identifier} {key : Key}
      (above : BuiltUp parent) (built : build parent kind identifier = .ok key) : BuiltUp (some key)

/-- A key that is built from the root down, the last level possibly without its identifier. -/
def IsBuilt (key : Key) : Prop :=
  BuiltUp (some key) ∨ ∃ parent kind, BuiltUp parent ∧ incomplete kind parent = .ok key

/-! ## What the constructors check -/

theorem path_of_parent? (above : key.parent? = some parent) :
    key.path = parent.path ++ [key.last] := by
  obtain ⟨ancestors, kind, identifier⟩ := key
  cases ancestors with
  | nil => contradiction
  | cons nearest rest =>
      obtain rfl := Option.some.inj above
      simp [path_eq, last, Ancestor.segment]

theorem path_of_root (rootless : key.parent? = none) : key.path = [key.last] := by
  obtain ⟨ancestors, kind, identifier⟩ := key
  cases ancestors with
  | nil => rfl
  | cons nearest rest => contradiction

theorem isWellFormed_iff :
    key.IsWellFormed ↔ (∀ above, key.parent? = some above → above.IsWellFormed) ∧
      key.last.IsValid := by
  unfold IsWellFormed
  cases found : key.parent? with
  | none => simp [path_of_root found]
  | some above => simp [path_of_parent? found, or_imp, forall_and]

theorem build_eq_ok_iff {parent : Option Key} :
    build parent kind identifier = .ok key ↔
      key.parent? = parent ∧ key.last = ⟨kind, some identifier⟩ ∧ key.last.IsValid := by
  simp only [build, bind_eq_ok_iff]
  constructor
  · rintro ⟨ancestors, found, _, validKind, _, validIdentifier, made⟩
    obtain rfl := Except.ok.inj made
    refine ⟨lineageUnder_eq_ok_iff.mp found, rfl, Kind.check_eq_ok_iff.mp validKind, ?_⟩
    rintro _ ⟨⟩
    exact Identifier.check_eq_ok_iff.mp validIdentifier
  · rintro ⟨above, same, valid⟩
    obtain ⟨ancestors, _, _⟩ := key
    obtain ⟨rfl, rfl⟩ := Segment.mk.inj same
    exact ⟨ancestors, lineageUnder_eq_ok_iff.mpr above, (), Kind.check_eq_ok_iff.mpr valid.kind, (),
      Identifier.check_eq_ok_iff.mpr (valid.identifier identifier rfl), rfl⟩

theorem incomplete_eq_ok_iff {parent : Option Key} :
    incomplete kind parent = .ok key ↔
      key.parent? = parent ∧ key.last = ⟨kind, none⟩ ∧ key.last.IsValid := by
  simp only [incomplete, bind_eq_ok_iff]
  constructor
  · rintro ⟨_, validKind, ancestors, found, made⟩
    obtain rfl := Except.ok.inj made
    refine ⟨lineageUnder_eq_ok_iff.mp found, rfl, Kind.check_eq_ok_iff.mp validKind, ?_⟩
    rintro _ ⟨⟩
  · rintro ⟨above, same, valid⟩
    obtain ⟨ancestors, _, _⟩ := key
    obtain ⟨rfl, rfl⟩ := Segment.mk.inj same
    exact ⟨(), Kind.check_eq_ok_iff.mpr valid.kind, ancestors, lineageUnder_eq_ok_iff.mpr above, rfl⟩

/-! ## Everything that can be had is well formed -/

theorem parent_isWellFormed (wellFormed : key.IsWellFormed) (above : key.parent? = some parent) :
    parent.IsWellFormed :=
  (isWellFormed_iff.mp wellFormed).1 parent above

/-- The root is the first level of the path, which was checked when it was built. -/
theorem root_isWellFormed (wellFormed : key.IsWellFormed) : key.root.IsWellFormed := by
  have first : ∀ segment ∈ key.root.path, segment ∈ key.path := by
    unfold Key.root
    cases found : key.ancestors.getLast? with
    | none => simp [path_eq, last]
    | some top =>
        have above : top ∈ key.ancestors := List.mem_of_getLast? found
        intro segment member
        obtain rfl : segment = top.segment := List.mem_singleton.mp member
        rw [path_eq, List.mem_append, List.mem_reverse]
        exact .inl (List.mem_map_of_mem above)
  exact fun segment member => wellFormed segment (first segment member)

theorem movedUnder_isWellFormed {moved : Key} (wellFormed : key.IsWellFormed)
    (above : parent.IsWellFormed) (built : key.movedUnder parent = .ok moved) :
    moved.IsWellFormed := by
  obtain ⟨sameKind, sameParent, sameIdentifier⟩ := movedUnder_ok built
  have sameLast : moved.last = key.last := by rw [last, last, sameKind, sameIdentifier]
  rw [isWellFormed_iff, sameParent, sameLast]
  refine ⟨?_, (isWellFormed_iff.mp wellFormed).2⟩
  rintro _ ⟨⟩
  exact above

/-- **Whatever can be had is well formed.** The induction is on how the key was had. -/
theorem Obtainable.isWellFormed (had : key.Obtainable) : key.IsWellFormed := by
  induction had with
  | build below built ih =>
      obtain ⟨rfl, -, valid⟩ := build_eq_ok_iff.mp built
      exact isWellFormed_iff.mpr ⟨ih, valid⟩
  | incomplete below built ih =>
      obtain ⟨rfl, -, valid⟩ := incomplete_eq_ok_iff.mp built
      exact isWellFormed_iff.mpr ⟨ih, valid⟩
  | movedUnder _ _ built first second => exact movedUnder_isWellFormed first second built
  | withId _ built ih =>
      unfold Key.withId at built
      split at built
      · contradiction
      · obtain ⟨above, -, valid⟩ := build_eq_ok_iff.mp built
        refine isWellFormed_iff.mpr ⟨fun parent found => ?_, valid⟩
        exact parent_isWellFormed ih (above.symm.trans found)
  | parent _ taken ih => exact parent_isWellFormed ih taken
  | root _ ih => exact root_isWellFormed ih
  | ofToken read => exact (ofToken_eq_ok_iff.mp read).2.1

/-! ## Building from the root down -/

theorem BuiltUp.isWellFormed {parent : Option Key} (built : BuiltUp parent) :
    ∀ key, parent = some key → key.IsWellFormed := by
  induction built with
  | none => rintro _ ⟨⟩
  | next _ made ih =>
      rintro _ ⟨⟩
      obtain ⟨rfl, -, valid⟩ := build_eq_ok_iff.mp made
      exact isWellFormed_iff.mpr ⟨ih, valid⟩

/-- The parent of a well-formed key can be built. The induction goes up the ancestors: each is
complete, and was checked as a level of the path. -/
theorem IsWellFormed.builtUp {ancestors : List Ancestor} {kind : String}
    {identifier : Option Identifier} (wellFormed : IsWellFormed ⟨ancestors, kind, identifier⟩) :
    BuiltUp (parent? ⟨ancestors, kind, identifier⟩) := by
  induction ancestors generalizing kind identifier with
  | nil => exact .none
  | cons nearest rest ih =>
      have above : IsWellFormed ⟨rest, nearest.kind, some nearest.identifier⟩ := parent_isWellFormed wellFormed rfl
      exact .next (ih above) (build_eq_ok_iff.mpr ⟨rfl, rfl, (isWellFormed_iff.mp above).2⟩)

/-- **The well-formed keys are those that are built from the root down.** -/
theorem isBuilt_iff : key.IsBuilt ↔ key.IsWellFormed := by
  constructor
  · rintro (built | ⟨parent, kind, above, built⟩)
    · exact built.isWellFormed key rfl
    · obtain ⟨rfl, -, valid⟩ := incomplete_eq_ok_iff.mp built
      exact isWellFormed_iff.mpr ⟨above.isWellFormed, valid⟩
  · intro wellFormed
    have valid := (isWellFormed_iff.mp wellFormed).2
    have above : BuiltUp key.parent? := wellFormed.builtUp
    cases known : key.identifier with
    | none =>
        have last : key.last = ⟨key.kind, none⟩ := by rw [Key.last, known]
        exact .inr ⟨_, _, above, incomplete_eq_ok_iff.mpr ⟨rfl, last, valid⟩⟩
    | some identifier =>
        have last : key.last = ⟨key.kind, some identifier⟩ := by rw [Key.last, known]
        exact .inl (.next above (build_eq_ok_iff.mpr ⟨rfl, last, valid⟩))

end Key

/-- What the path of a key is like: it has a last level, the levels above it have an identifier and
the last one may have one, identifiers are positive numbers or names that are not empty, and all kinds
pass the check of kinds. -/
structure Segment.FormKey (path : List Segment) : Prop where
  inhabited : path ≠ []
  ancestors : ∀ segment ∈ path.dropLast, ∃ identifier,
    segment.identifier = some identifier ∧ identifier.IsValid
  last : ∀ segment, path.getLast? = some segment → ∀ identifier,
    segment.identifier = some identifier → identifier.IsValid
  kinds : ∀ segment ∈ path, Kind.check segment.kind = .ok ()

namespace Key

theorem IsWellFormed.formKey {key : Key} (wellFormed : key.IsWellFormed) :
    Segment.FormKey key.path := by
  refine ⟨?inhabited, ?ancestors, ?last, ?kinds⟩
  case inhabited => simp [path_eq]
  case ancestors =>
    intro segment member
    have valid := wellFormed segment ((List.dropLast_sublist _).subset member)
    rw [path_eq, List.dropLast_concat, List.mem_reverse, List.mem_map] at member
    obtain ⟨ancestor, -, rfl⟩ := member
    exact ⟨ancestor.identifier, rfl, valid.identifier _ rfl⟩
  case last =>
    intro segment found identifier known
    exact (wellFormed segment (List.mem_of_getLast? found)).identifier identifier known
  case kinds =>
    intro segment member
    exact Kind.check_eq_ok_iff.mpr (wellFormed segment member).kind

/-- **Every key is well formed, and the two checks of keys agree.** Whatever composition of operations
gives a key, its path is that of a key. A path is read as a key exactly when that key is built from the
root down, and so is the path in a token: no token gives a key that cannot be built, and none is refused
whose key can be. -/
theorem checks_agree :
    (∀ key : Key, key.Obtainable → Segment.FormKey key.path) ∧
    (∀ (path : List Segment) (key : Key), ofPath path = .ok key ↔ path = key.path ∧ key.IsBuilt) ∧
    (∀ (text : String) (bytes : List UInt8) (path : List Segment),
      Bytes.Base64Url.decode? (Text.trimBlank text.toList) = some bytes →
      Token.pathOf bytes = .ok path →
      ∀ key : Key, ofToken text = .ok key ↔ path = key.path ∧ key.IsBuilt) ∧
    (∀ (text : String) (key : Key), ofToken text = .ok key → key.IsBuilt) := by
  refine ⟨?obtained, ?path, ?token, ?decoded⟩
  case obtained => exact fun key had => had.isWellFormed.formKey
  case path =>
    intro path key
    rw [ofPath_eq_ok_iff, isBuilt_iff]
  case token =>
    intro text bytes path decoded spelled key
    rw [ofToken, mapError_eq_ok_iff, Token.read, decoded, isBuilt_iff]
    simp only [spelled]
    exact mapError_eq_ok_iff.trans ofPath_eq_ok_iff
  case decoded => exact fun text key read => isBuilt_iff.mpr (ofToken_eq_ok_iff.mp read).2.1

/-- A book that is moved below its library before it is given its number. -/
def placedBook : Key :=
  ⟨[⟨"Library", .name "central"⟩], "Book", some (.id 7)⟩

theorem checks_agree_placedBook :
    Segment.FormKey placedBook.path ∧ placedBook.IsBuilt ∧
      ofToken placedBook.token = .ok placedBook := by
  have builtLibrary : build none "Library" (.name "central") =
    .ok ⟨[], "Library", some (.name "central")⟩ := rfl
  have builtBook : incomplete "Book" none = .ok ⟨[], "Book", none⟩ := rfl
  have atRoot : ∀ above, (none : Option Key) = some above → Obtainable above := nofun
  have unnumbered : Obtainable ⟨[⟨"Library", .name "central"⟩], "Book", none⟩ :=
    .movedUnder (.incomplete atRoot builtBook) (.build atRoot builtLibrary) rfl
  have numbered : withId ⟨[⟨"Library", .name "central"⟩], "Book", none⟩ 7 = .ok placedBook := rfl
  have read : ofPath placedBook.path = .ok placedBook := ofPath_eq_ok_iff.mpr ⟨rfl, by decide⟩
  have built : placedBook.IsBuilt := ((checks_agree.2.1 placedBook.path placedBook).mp read).2
  have decoded : Bytes.Base64Url.decode? (Text.trimBlank placedBook.token.toList) =
      some (Token.pathBytes placedBook.path) := by
    rw [trimBlank_token, token, String.toList_ofList, Bytes.Base64Url.decode?_encode]
  have spelled : Token.pathOf (Token.pathBytes placedBook.path) = .ok placedBook.path := rfl
  exact ⟨checks_agree.1 placedBook (.withId unnumbered numbered), built,
    (checks_agree.2.2.1 placedBook.token _ placedBook.path decoded spelled placedBook).mpr
      ⟨rfl, built⟩⟩

end Key

end RecordMapping
