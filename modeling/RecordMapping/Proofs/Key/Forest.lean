import Mathlib.Logic.Relation
import RecordMapping.Proofs.Key.Build
import RecordMapping.Proofs.Key.WellFormed

/-!
# The forest of keys

Each key has one parent or none, and going from parent to parent ends at a root. So keys form a forest,
and `Key.isAncestorOf` tells who is above whom in it: by the ancestors of a key
(`Key.isAncestorOf_iff`), by paths (`Key.isAncestorOf_iff_path`), or by steps up
(`Key.isAncestorOf_iff_stepsUp`). Moving a key hangs it, with its own last level, below another one.
-/

namespace RecordMapping.Key

variable {key parent above other : Key}

/-- One step up in the forest. -/
def StepsUp (key parent : Key) : Prop :=
  key.parent? = some parent

/-- What holds of every root, and of a key as soon as it holds of its parent, holds of every key. -/
theorem fromRoots {motive : Key → Prop} (root : ∀ key, key.parent? = none → motive key)
    (child : ∀ key parent, key.parent? = some parent → motive parent → motive key) (key : Key) :
    motive key := by
  obtain ⟨ancestors, kind, identifier⟩ := key
  induction ancestors generalizing kind identifier with
  | nil => exact root _ rfl
  | cons nearest rest ih => exact child _ _ rfl (ih nearest.kind (some nearest.identifier))

/-! ## Ancestors -/

/-- A complete key can be above others, in a lineage that it is the first of. -/
theorem lineage?_eq_some_iff_cons {lineage : List Ancestor} :
    above.lineage? = some lineage ↔ ∃ identifier, above.identifier = some identifier ∧
      ⟨above.kind, identifier⟩ :: above.ancestors = lineage := by
  rw [lineage?, Option.map_eq_some_iff]

theorem isAncestorOf_iff :
    above.isAncestorOf key = true ↔
      ∃ lineage, above.lineage? = some lineage ∧ lineage <:+ key.ancestors := by
  unfold isAncestorOf
  cases above.lineage? <;> simp

theorem not_isAncestorOf_of_root (rootless : key.parent? = none) :
    above.isAncestorOf key = false := by
  obtain ⟨_ | ⟨nearest, rest⟩, kind, identifier⟩ := key
  · rw [← Bool.not_eq_true, isAncestorOf_iff]
    intro ancestor
    obtain ⟨lineage, found, empty⟩ := ancestor
    obtain rfl := List.suffix_nil.mp empty
    have below : parent? ⟨[], kind, identifier⟩ = some above := lineage?_eq_some_iff.mp found
    contradiction
  · contradiction

/-- Above a key are its parent and what is above that. -/
theorem isAncestorOf_of_parent? (found : key.parent? = some parent) :
    above.isAncestorOf key = true ↔ above = parent ∨ above.isAncestorOf parent = true := by
  obtain ⟨_ | ⟨nearest, rest⟩, kind, identifier⟩ := key
  · contradiction
  · obtain rfl := Option.some.inj found
    simp only [isAncestorOf_iff, List.suffix_cons_iff]
    constructor
    · intro ancestor
      obtain ⟨lineage, known, rfl | higher⟩ := ancestor
      · have same : parent? ⟨nearest :: rest, kind, identifier⟩ = some above :=
          lineage?_eq_some_iff.mp known
        exact .inl (Option.some.inj same).symm
      · exact .inr ⟨lineage, known, higher⟩
    · intro among
      rcases among with rfl | ⟨lineage, known, higher⟩
      · exact ⟨nearest :: rest, rfl, .inl rfl⟩
      · exact ⟨lineage, known, .inr higher⟩

/-- **Above a key is what is reached from it by one or more steps up.** -/
theorem isAncestorOf_iff_stepsUp (above key : Key) :
    above.isAncestorOf key = true ↔ Relation.TransGen StepsUp key above := by
  induction key using fromRoots with
  | root key rootless =>
      rw [not_isAncestorOf_of_root rootless, Relation.TransGen.head'_iff]
      simp [StepsUp, rootless]
  | child key parent found ih =>
      have climbs : Relation.TransGen StepsUp key above ↔
          Relation.ReflTransGen StepsUp parent above := by
        rw [Relation.TransGen.head'_iff]
        simp only [StepsUp, found, Option.some.injEq, exists_eq_left']
      rw [isAncestorOf_of_parent? found, ih, climbs, Relation.reflTransGen_iff_eq_or_transGen]

theorem isComplete_of_isAncestorOf (ancestor : above.isAncestorOf key = true) :
    above.isComplete = true := by
  obtain ⟨lineage, known, -⟩ := isAncestorOf_iff.mp ancestor
  obtain ⟨identifier, known, -⟩ := lineage?_eq_some_iff_cons.mp known
  rw [isComplete, known, Option.isSome_some]

theorem isAncestorOf_trans (first : above.isAncestorOf parent = true)
    (second : parent.isAncestorOf key = true) : above.isAncestorOf key = true := by
  rw [isAncestorOf_iff_stepsUp] at first second ⊢
  exact second.trans first

/-- Going up, keys get shorter. -/
theorem length_lt_of_isAncestorOf (ancestor : above.isAncestorOf key = true) :
    above.ancestors.length < key.ancestors.length := by
  obtain ⟨lineage, known, higher⟩ := isAncestorOf_iff.mp ancestor
  obtain ⟨identifier, -, rfl⟩ := lineage?_eq_some_iff_cons.mp known
  exact higher.length_le

/-- Of two keys above a third, one is above the other, since both are met on the same way up. -/
theorem isAncestorOf_or_of_common (first : above.isAncestorOf key = true)
    (second : other.isAncestorOf key = true) :
    above = other ∨ above.isAncestorOf other = true ∨ other.isAncestorOf above = true := by
  induction key using fromRoots with
  | root key rootless =>
      rw [not_isAncestorOf_of_root rootless] at first
      contradiction
  | child key parent found ih =>
      rcases (isAncestorOf_of_parent? found).mp first with rfl | firstHigher
      · rcases (isAncestorOf_of_parent? found).mp second with rfl | secondHigher
        · exact .inl rfl
        · exact .inr (.inr secondHigher)
      · rcases (isAncestorOf_of_parent? found).mp second with rfl | secondHigher
        · exact .inr (.inl firstHigher)
        · exact ih firstHigher secondHigher

/-! ## Paths -/

theorem path_of_lineage? {lineage : List Ancestor} (known : above.lineage? = some lineage) :
    above.path = (lineage.map Ancestor.segment).reverse := by
  obtain ⟨identifier, identified, rfl⟩ := lineage?_eq_some_iff_cons.mp known
  rw [path, last, identified]
  rfl

/-- The levels above a key are known, so that only the path of a complete key can be among them. -/
theorem isComplete_of_path_among
    (higher : above.path <+: (key.ancestors.map Ancestor.segment).reverse) :
    above.isComplete = true := by
  have member : above.last ∈ (key.ancestors.map Ancestor.segment).reverse :=
    higher.subset (by simp [path_eq])
  rw [List.mem_reverse, List.mem_map] at member
  obtain ⟨ancestor, -, same⟩ := member
  have known : some ancestor.identifier = above.identifier := congrArg Segment.identifier same
  rw [isComplete, ← known, Option.isSome_some]

/-- **Above a key is what has a shorter path that its own path starts with.** -/
theorem isAncestorOf_iff_path :
    above.isAncestorOf key = true ↔
      above.path.length < key.path.length ∧ above.path <+: key.path := by
  have proper : above.path.length < key.path.length ∧ above.path <+: key.path ↔
      above.path <+: (key.ancestors.map Ancestor.segment).reverse := by
    rw [key.path_eq]
    constructor
    · intro starts
      obtain ⟨shorter, starts⟩ := starts
      apply List.prefix_of_prefix_length_le starts (List.prefix_append _ _)
      simpa using Nat.lt_succ_iff.mp (by simpa using shorter)
    · intro starts
      have bound := starts.length_le
      exact ⟨by simp at bound ⊢; omega, starts.trans (List.prefix_append _ _)⟩
  rw [proper, isAncestorOf_iff]
  constructor
  · intro ancestor
    obtain ⟨lineage, known, higher⟩ := ancestor
    rw [path_of_lineage? known, List.reverse_prefix]
    exact higher.map _
  · intro starts
    obtain ⟨identifier, known⟩ := Option.isSome_iff_exists.mp (isComplete_of_path_among starts)
    have spelled := lineage?_eq_some_iff_cons.mpr ⟨identifier, known, rfl⟩
    refine ⟨_, spelled, ?_⟩
    rw [path_of_lineage? spelled, List.reverse_prefix] at starts
    exact (List.suffix_map_iff_of_injective Ancestor.segment_injective).mp starts

/-! ## Roots -/

theorem root_of_parent?_eq_none (rootless : key.parent? = none) : key.root = key := by
  obtain ⟨_ | ⟨nearest, rest⟩, kind, identifier⟩ := key
  · rfl
  · contradiction

/-- A key and its parent have the same root. -/
theorem root_of_parent? (found : key.parent? = some parent) : key.root = parent.root := by
  obtain ⟨_ | ⟨nearest, _ | ⟨next, rest⟩⟩, kind, identifier⟩ := key
  · contradiction
  · obtain rfl := Option.some.inj found
    rfl
  · obtain rfl := Option.some.inj found
    simp only [root, List.getLast?_cons_cons]
    cases top : (next :: rest).getLast? with
    | none => simp at top
    | some top => rfl

theorem root_of_isAncestorOf (ancestor : above.isAncestorOf key = true) :
    above.root = key.root := by
  induction key using fromRoots with
  | root key rootless =>
      rw [not_isAncestorOf_of_root rootless] at ancestor
      contradiction
  | child key parent found ih =>
      rw [root_of_parent? found]
      rcases (isAncestorOf_of_parent? found).mp ancestor with rfl | higher
      · rfl
      · exact ih higher

theorem root_eq_or_isAncestorOf (key : Key) : key.root = key ∨ key.root.isAncestorOf key = true := by
  induction key using fromRoots with
  | root key rootless => exact .inl (root_of_parent?_eq_none rootless)
  | child key parent found ih =>
      rw [root_of_parent? found, isAncestorOf_of_parent? found]
      exact .inr ih

theorem hasParent_root (key : Key) : key.root.hasParent = false := by
  unfold root
  split <;> rfl

/-- The root is the one key among a key and those above it that has no parent. -/
theorem eq_root_iff :
    (above = key ∨ above.isAncestorOf key = true) ∧ above.hasParent = false ↔ above = key.root := by
  constructor
  · intro top
    obtain ⟨among, rootless⟩ := top
    rw [Bool.eq_false_iff] at rootless
    have own := root_of_parent?_eq_none (parent?_eq_none rootless)
    rcases among with rfl | ancestor
    · exact own.symm
    · rw [← root_of_isAncestorOf ancestor, own]
  · intro same
    rw [same]
    exact ⟨key.root_eq_or_isAncestorOf, key.hasParent_root⟩

/-! ## Moved keys -/

theorem movedUnder_eq_ok_iff {moved : Key} :
    key.movedUnder parent = .ok moved ↔
      moved.parent? = some parent ∧ moved.kind = key.kind ∧ moved.identifier = key.identifier := by
  constructor
  · intro built
    obtain ⟨kind, below, identifier⟩ := movedUnder_ok built
    exact ⟨below, kind, identifier⟩
  · obtain ⟨ancestors, kind, identifier⟩ := moved
    intro placed
    obtain ⟨below, rfl, rfl⟩ := placed
    simp only [movedUnder, bind_eq_ok_iff]
    exact ⟨ancestors, lineageUnder_eq_ok_iff.mpr below, rfl⟩

/-- A key can be moved below every complete key, and below no other. -/
theorem exists_movedUnder_iff :
    (∃ moved, key.movedUnder parent = .ok moved) ↔ parent.isComplete = true := by
  constructor
  · intro movable
    obtain ⟨moved, built⟩ := movable
    have below := (movedUnder_eq_ok_iff.mp built).1
    exact isComplete_of_isAncestorOf ((isAncestorOf_of_parent? below).mpr (.inl rfl))
  · exact movedUnder_of_isComplete key

/-- Whether `moved` is a key at its place below a parent. -/
structure HangsBelow (key parent moved : Key) : Prop where
  below : moved.parent? = some parent
  tree : moved.root = parent.root
  kind : moved.kind = key.kind
  identifier : moved.identifier = key.identifier
  ancestors : ∀ above : Key,
    above.isAncestorOf moved = true ↔ above = parent ∨ above.isAncestorOf parent = true

theorem hangsBelow_of_movedUnder {moved : Key} (built : key.movedUnder parent = .ok moved) :
    key.HangsBelow parent moved := by
  obtain ⟨below, kind, identifier⟩ := movedUnder_eq_ok_iff.mp built
  exact ⟨below, root_of_parent? below, kind, identifier, fun _ => isAncestorOf_of_parent? below⟩

/-- **Keys form a forest.** Above a key is what is reached from it by steps up, which is what has a
shorter path that the key's path starts with. No key is above itself, two keys are not above each
other, what is above a key is above all that is below it, and of two keys above a third one is above
the other. A key is placed in one tree, which its root tells, and can be moved below any complete
key. -/
theorem keys_form_forest :
    (∀ above key : Key, above.isAncestorOf key = true ↔ Relation.TransGen StepsUp key above) ∧
    (∀ above key : Key, above.isAncestorOf key = true ↔
      above.path.length < key.path.length ∧ above.path <+: key.path) ∧
    (∀ key : Key, key.isAncestorOf key = false) ∧
    (∀ above key : Key, above.isAncestorOf key = true → key.isAncestorOf above = false) ∧
    (∀ above middle key : Key, above.isAncestorOf middle = true → middle.isAncestorOf key = true →
      above.isAncestorOf key = true) ∧
    (∀ above other key : Key, above.isAncestorOf key = true → other.isAncestorOf key = true →
      above ≠ other → above.isAncestorOf other = true ∨ other.isAncestorOf above = true) ∧
    (∀ above key : Key, above.isComplete = false → above.isAncestorOf key = false) ∧
    (∀ above key : Key,
      (above = key ∨ above.isAncestorOf key = true) ∧ above.hasParent = false ↔ above = key.root) ∧
    (∀ above key : Key, above.isAncestorOf key = true → above.root = key.root) ∧
    (∀ key parent : Key, (∃ moved, key.movedUnder parent = .ok moved) ↔ parent.isComplete = true) ∧
    (∀ key parent moved : Key, key.movedUnder parent = .ok moved → key.HangsBelow parent moved) ∧
    (∀ key parent : Key, key.parent? = some parent → key.movedUnder parent = .ok key) := by
  refine ⟨isAncestorOf_iff_stepsUp, fun _ _ => isAncestorOf_iff_path, ?irreflexive, ?asymmetric,
    fun _ _ _ => isAncestorOf_trans, ?comparable, ?incomplete, fun _ _ => eq_root_iff,
    fun _ _ => root_of_isAncestorOf, fun _ _ => exists_movedUnder_iff,
    fun _ _ _ => hangsBelow_of_movedUnder, fun _ _ found => movedUnder_eq_ok_iff.mpr ⟨found, rfl, rfl⟩⟩
  case irreflexive =>
    intro key
    rw [Bool.eq_false_iff]
    exact fun ancestor => Nat.lt_irrefl _ (length_lt_of_isAncestorOf ancestor)
  case asymmetric =>
    intro above key ancestor
    rw [Bool.eq_false_iff]
    intro back
    exact Nat.lt_asymm (length_lt_of_isAncestorOf ancestor) (length_lt_of_isAncestorOf back)
  case comparable =>
    intro above other key first second different
    exact (isAncestorOf_or_of_common first second).resolve_left different
  case incomplete =>
    intro above key missing
    rw [Bool.eq_false_iff]
    intro ancestor
    rw [isComplete_of_isAncestorOf ancestor] at missing
    contradiction

/-- A library is above its shelf and above the book on it, which can be moved below another shelf. -/
theorem keys_form_forest_shelf :
    let library : Key := ⟨[], "Library", some (.name "central")⟩
    let shelf : Key := ⟨[⟨"Library", .name "central"⟩], "Shelf", some (.id 3)⟩
    let other : Key := ⟨[⟨"Library", .name "central"⟩], "Shelf", some (.id 4)⟩
    let book : Key := ⟨[⟨"Shelf", .id 3⟩, ⟨"Library", .name "central"⟩], "Book", none⟩
    let moved : Key := ⟨[⟨"Shelf", .id 4⟩, ⟨"Library", .name "central"⟩], "Book", none⟩
    library.isAncestorOf book = true ∧ book.isAncestorOf library = false ∧
      library.root = book.root ∧ library.isAncestorOf shelf = true ∧
      shelf.isAncestorOf library = false ∧ book.isAncestorOf shelf = false ∧
      book.HangsBelow other moved ∧ moved.movedUnder other = .ok moved := by
  intro library shelf other book moved
  obtain ⟨-, -, -, asymmetric, transitive, comparable, incomplete, -, roots, -, moves, back⟩ :=
    keys_form_forest
  have ofShelf : library.isAncestorOf shelf = true := by decide
  have ofBook : shelf.isAncestorOf book = true := by decide
  have above : library.isAncestorOf book = true := transitive library shelf book ofShelf ofBook
  have distinct : library ≠ shelf := by decide
  have notBack := asymmetric library shelf ofShelf
  have onWay : library.isAncestorOf shelf = true :=
    (comparable library shelf book above ofBook distinct).resolve_right (by simp [notBack])
  exact ⟨above, asymmetric library book above, roots library book above, onWay, notBack,
    incomplete book shelf rfl, moves book other moved rfl, back moved other rfl⟩

end RecordMapping.Key
