import Mathlib.Data.List.Induction
import RecordMapping.Proofs.Draft.Registration
import RecordMapping.Proofs.Key.WellFormed
import RecordMapping.Schema.Class

/-!
# What a class keeps of its fields

A class is looked up by the parts that its fields play: which field is the primary key, which one
holds the parent's key, at which positions there are relations. `ClassDescription.index` gathers all
this in the one pass that also checks the fields, as a class does that keeps what it has found.

The pass accepts the descriptions that are consistent and no others, and what it keeps is what
looking through the fields finds (`ClassDescription.index_eq_ok_iff`). So a class is had exactly from
a consistent description, and everything that is read of it afterwards is right
(`ClassDescription.build_iff_consistent`).
-/

namespace RecordMapping

/-- A field as a class keeps it: with its position and the part that it plays. -/
structure PlacedField where
  field : Field
  position : Nat
  role : Role

/-- What a class keeps of its fields. -/
structure FieldIndex where
  fields : List PlacedField := []
  primaryKey : Option Nat := none
  parentKey : Option Nat := none
  relations : List Nat := []

namespace FieldIndex

/-- The field as it is kept after the others. -/
def placed (index : FieldIndex) (field : Field) : PlacedField :=
  ⟨field, index.fields.length, field.role⟩

/-- Keeps one more field, unless its part in the key is ambiguous or taken. -/
def add (className : String) (index : FieldIndex) (field : Field) :
    Except SchemaFault FieldIndex := do
  field.checkKeyFlags className
  let { fields, primaryKey, parentKey, relations } := index
  match field.role with
  | .primaryKey =>
      if primaryKey.isSome then .error (.severalPrimaryKeys className)
      else .ok ⟨fields ++ [index.placed field], some fields.length, parentKey, relations⟩
  | .parentKey =>
      if parentKey.isSome then .error (.severalParentKeys className)
      else .ok ⟨fields ++ [index.placed field], primaryKey, some fields.length, relations⟩
  | .relation =>
      .ok ⟨fields ++ [index.placed field], primaryKey, parentKey, relations ++ [fields.length]⟩
  | _ => .ok ⟨fields ++ [index.placed field], primaryKey, parentKey, relations⟩

end FieldIndex

namespace ClassDescription

/-- What the class keeps of its fields, if the description is consistent. -/
def index (description : ClassDescription) : Except SchemaFault FieldIndex := do
  (Kind.check description.effectiveKind).mapError .invalidKind
  let index ← description.fields.foldlM (FieldIndex.add description.name) {}
  if index.primaryKey.isNone && !description.isEmbeddable then
    .error (.noPrimaryKey description.name)
  else return index

/-- The class that the description is of. -/
def described (description : ClassDescription) : Schema where
  name := description.name
  kind := description.effectiveKind
  inheritance := description.inheritance
  isEmbeddable := description.isEmbeddable
  fields := description.fields

end ClassDescription

/-! ## The pass that keeps what it finds, and the one that only checks -/

namespace FieldIndex

variable {className : String} {index next : FieldIndex} {field : Field} {fields : List Field}

/-- A field meets the same checks in both passes. -/
theorem checkFields_cons (className : String) (index : FieldIndex) (field : Field)
    (rest : List Field) :
    ClassDescription.checkFields className index.primaryKey.isSome index.parentKey.isSome
        (field :: rest) =
      index.add className field >>= fun next =>
        ClassDescription.checkFields className next.primaryKey.isSome next.parentKey.isSome rest := by
  obtain ⟨fields, primaryKey, parentKey, relations⟩ := index
  rw [ClassDescription.checkFields, add]
  cases field.checkKeyFlags className with
  | error fault => rfl
  | ok passed =>
      cases field.role with
      | primaryKey => cases primaryKey <;> rfl
      | parentKey => cases parentKey <;> rfl
      | primaryKeyName => rfl
      | primaryKeyId => rfl
      | regular => rfl
      | relation => rfl

theorem checkFields_eq (className : String) (index : FieldIndex) (fields : List Field) :
    ClassDescription.checkFields className index.primaryKey.isSome index.parentKey.isSome fields =
      fields.foldlM (add className) index >>= fun kept => .ok kept.primaryKey.isSome := by
  induction fields generalizing index with
  | nil => rfl
  | cons field rest ih =>
      rw [checkFields_cons, List.foldlM_cons, bind_assoc]
      exact bind_congr ih

end FieldIndex

/-- The class is had where its fields can be kept, and the fault that is met is the same. -/
theorem ClassDescription.build_eq_index (description : ClassDescription) :
    description.build =
      description.index.mapError .invalidMetadata >>= fun _ => .ok description.described := by
  have passes := FieldIndex.checkFields_eq description.name {} description.fields
  change checkFields description.name false false description.fields = _ at passes
  rw [build, check, index, passes]
  cases (Kind.check description.effectiveKind).mapError SchemaFault.invalidKind with
  | error fault => rfl
  | ok passed =>
      cases description.fields.foldlM (FieldIndex.add description.name) {} with
      | error fault => rfl
      | ok kept =>
          obtain ⟨name, kind, inheritance, isEmbeddable, fields⟩ := description
          obtain ⟨placed, primaryKey, parentKey, relations⟩ := kept
          cases primaryKey <;> cases isEmbeddable <;> rfl

/-! ## Consistent descriptions -/

namespace Field

variable {field : Field} {className : String}

/-- The field is said to be one part of the key at most, and none if it is a relation. -/
structure IsUnambiguous (field : Field) : Prop where
  oneFlag : field.keyFlags.count true ≤ 1
  relation : field.relation.isSome = true → field.isInKey = false

/-- Whether the field is said to play the part. -/
def Plays (field : Field) : Role → Prop
  | .primaryKey => field.isPrimaryKey = true
  | .parentKey => field.isParentKey = true
  | .primaryKeyName => field.isKeyName = true
  | .primaryKeyId => field.isKeyId = true
  | .relation => field.relation.isSome = true
  | .regular => field.isInKey = false ∧ field.relation = none

theorem checkKeyFlags_eq_ok_iff :
    field.checkKeyFlags className = .ok () ↔ field.IsUnambiguous := by
  unfold checkKeyFlags
  constructor
  · intro passed
    split at passed
    case isTrue => contradiction
    case isFalse single =>
      split at passed
      case isTrue => contradiction
      case isFalse apart =>
        rw [not_and, Bool.not_eq_true] at apart
        exact ⟨Nat.not_lt.mp single, apart⟩
  · intro ⟨oneFlag, relation⟩
    have apart : ¬ (field.relation.isSome = true ∧ field.isInKey = true) := by
      rw [not_and, Bool.not_eq_true]
      exact relation
    rw [if_neg (Nat.not_lt.mpr oneFlag), if_neg apart]

/-- An unambiguous field plays the part that it is said to play. -/
theorem IsUnambiguous.role_eq_iff (unambiguous : field.IsUnambiguous) (role : Role) :
    field.role = role ↔ field.Plays role := by
  obtain ⟨oneFlag, relation⟩ := unambiguous
  unfold Field.role
  rw [isInKey] at relation
  rw [keyFlags] at oneFlag relation
  cases primary : field.isPrimaryKey <;> cases parent : field.isParentKey <;>
  cases name : field.isKeyName <;> cases id : field.isKeyId <;>
  cases related : field.relation <;> cases role <;>
  simp_all [Plays, isInKey, keyFlags]

end Field

/-- Fields that can be those of one class: none is ambiguous, and no two are the primary key or the
parent's key. -/
structure Field.AreConsistent (fields : List Field) : Prop where
  unambiguous : ∀ field ∈ fields, field.IsUnambiguous
  onePrimary : fields.Pairwise fun first second =>
    ¬ (first.isPrimaryKey = true ∧ second.isPrimaryKey = true)
  oneParent : fields.Pairwise fun first second =>
    ¬ (first.isParentKey = true ∧ second.isParentKey = true)

/-- A description that no rule for classes forbids. -/
structure ClassDescription.IsConsistent (description : ClassDescription) : Prop where
  kind : Kind.IsValid description.effectiveKind
  fields : Field.AreConsistent description.fields
  primary : description.isEmbeddable = false →
    ∃ field ∈ description.fields, field.isPrimaryKey = true

instance (field : Field) : Decidable field.IsUnambiguous :=
  decidable_of_iff
    (field.keyFlags.count true ≤ 1 ∧ (field.relation.isSome = true → field.isInKey = false))
    ⟨fun ⟨oneFlag, relation⟩ => ⟨oneFlag, relation⟩, fun ⟨oneFlag, relation⟩ => ⟨oneFlag, relation⟩⟩

instance (fields : List Field) : Decidable (Field.AreConsistent fields) :=
  decidable_of_iff
    ((∀ field ∈ fields, field.IsUnambiguous) ∧
      (fields.Pairwise fun first second =>
        ¬ (first.isPrimaryKey = true ∧ second.isPrimaryKey = true)) ∧
      fields.Pairwise fun first second =>
        ¬ (first.isParentKey = true ∧ second.isParentKey = true))
    ⟨fun ⟨unambiguous, primary, parent⟩ => ⟨unambiguous, primary, parent⟩,
      fun ⟨unambiguous, primary, parent⟩ => ⟨unambiguous, primary, parent⟩⟩

instance (description : ClassDescription) : Decidable description.IsConsistent :=
  decidable_of_iff
    (Kind.IsValid description.effectiveKind ∧ Field.AreConsistent description.fields ∧
      (description.isEmbeddable = false →
        ∃ field ∈ description.fields, field.isPrimaryKey = true))
    ⟨fun ⟨kind, fields, primary⟩ => ⟨kind, fields, primary⟩,
      fun ⟨kind, fields, primary⟩ => ⟨kind, fields, primary⟩⟩

variable {className : String} {field : Field} {seen fields : List Field} {next : FieldIndex}

/-- One more field is consistent with those before it if it is unambiguous and takes no part in the
key that one of them has. -/
theorem Field.areConsistent_concat :
    AreConsistent (seen ++ [field]) ↔ AreConsistent seen ∧ field.IsUnambiguous ∧
      (field.isPrimaryKey = true → ∀ other ∈ seen, ¬ other.isPrimaryKey = true) ∧
      (field.isParentKey = true → ∀ other ∈ seen, ¬ other.isParentKey = true) := by
  have apart (flag : Field → Bool) :
      (seen ++ [field]).Pairwise (fun first second => ¬ (flag first = true ∧ flag second = true)) ↔
        seen.Pairwise (fun first second => ¬ (flag first = true ∧ flag second = true)) ∧
          (flag field = true → ∀ other ∈ seen, ¬ flag other = true) := by
    rw [List.pairwise_append]
    simp only [List.pairwise_singleton, List.forall_mem_singleton, true_and, not_and']
    exact and_congr_right fun _ =>
      ⟨fun apart held other member => apart other member held,
        fun apart other member held => apart held other member⟩
  constructor
  · intro ⟨unambiguous, onePrimary, oneParent⟩
    obtain ⟨earlier, itself⟩ := List.forall_mem_append.mp unambiguous
    obtain ⟨onePrimary, primary⟩ := (apart _).mp onePrimary
    obtain ⟨oneParent, parent⟩ := (apart _).mp oneParent
    exact ⟨⟨earlier, onePrimary, oneParent⟩, List.forall_mem_singleton.mp itself, primary, parent⟩
  · intro ⟨⟨earlier, onePrimary, oneParent⟩, itself, primary, parent⟩
    have unambiguous := List.forall_mem_append.mpr ⟨earlier, List.forall_mem_singleton.mpr itself⟩
    exact ⟨unambiguous, (apart _).mpr ⟨onePrimary, primary⟩, (apart _).mpr ⟨oneParent, parent⟩⟩

/-! ## What the pass keeps -/

namespace FieldIndex

/-- What looking through the fields finds. -/
def of (fields : List Field) : FieldIndex where
  fields := fields.zipIdx.map fun (field, position) => ⟨field, position, field.role⟩
  primaryKey := fields.findIdx? fun field => field.role = .primaryKey
  parentKey := fields.findIdx? fun field => field.role = .parentKey
  relations := (List.range fields.length).filter fun position =>
    (fields[position]?).any fun field => field.role = .relation

/-- The index with one more field, whose part in the key nobody else has. -/
def including (index : FieldIndex) (field : Field) : FieldIndex where
  fields := index.fields ++ [index.placed field]
  primaryKey := index.primaryKey.or
    (if field.role = .primaryKey then some index.fields.length else none)
  parentKey := index.parentKey.or
    (if field.role = .parentKey then some index.fields.length else none)
  relations := index.relations ++ if field.role = .relation then [index.fields.length] else []

theorem add_eq_ok_iff {index : FieldIndex} :
    index.add className field = .ok next ↔
      (field.IsUnambiguous ∧ (field.role = .primaryKey → index.primaryKey = none) ∧
        (field.role = .parentKey → index.parentKey = none)) ∧ next = index.including field := by
  obtain ⟨fields, primaryKey, parentKey, relations⟩ := index
  rw [add, check_bind_eq_ok_iff, Field.checkKeyFlags_eq_ok_iff, and_assoc, FieldIndex.including]
  apply and_congr_right
  intro unambiguous
  cases plays : field.role with
  | primaryKey => cases primaryKey <;> simp [eq_comm]
  | parentKey => cases parentKey <;> simp [eq_comm]
  | primaryKeyName => simp [eq_comm]
  | primaryKeyId => simp [eq_comm]
  | regular => simp [eq_comm]
  | relation => simp [eq_comm]

theorem findIdx?_concat (role : Role) :
    ((seen ++ [field]).findIdx? fun other => other.role = role) =
      (seen.findIdx? fun other => other.role = role).or
        (if field.role = role then some seen.length else none) := by
  rw [List.findIdx?_append, List.findIdx?_singleton]
  split <;> simp_all

theorem positions_concat (role : Role) :
    ((List.range (seen ++ [field]).length).filter fun position =>
        (seen ++ [field])[position]?.any fun other => other.role = role) =
      ((List.range seen.length).filter fun position =>
        seen[position]?.any fun other => other.role = role) ++
        if field.role = role then [seen.length] else [] := by
  have earlier : ∀ position ∈ List.range seen.length,
      ((seen ++ [field])[position]?.any fun other => other.role = role) =
        seen[position]?.any fun other => other.role = role := by
    intro position within
    rw [List.getElem?_append_left (List.mem_range.mp within)]
  rw [List.length_append, List.length_singleton, List.range_succ, List.filter_append,
    List.filter_congr earlier, List.filter_singleton, List.getElem?_concat_length]
  simp

/-- Looking through one more field finds that field besides. -/
theorem of_concat : of (seen ++ [field]) = (of seen).including field := by
  have length : (of seen).fields.length = seen.length := by simp [of]
  unfold FieldIndex.including
  rw [length, of, findIdx?_concat, findIdx?_concat, positions_concat]
  simp [of, placed, List.zipIdx_append]

theorem nobodyPlays_iff (unambiguous : ∀ other ∈ seen, other.IsUnambiguous) (role : Role) :
    (seen.findIdx? fun other => other.role = role) = none ↔
      ∀ other ∈ seen, ¬ other.Plays role := by
  rw [List.findIdx?_eq_none_iff]
  apply forall₂_congr
  intro other member
  rw [decide_eq_false_iff_not, (unambiguous other member).role_eq_iff]

/-- **The pass keeps what looking through the fields finds, and stops at fields that are not
consistent.** The induction adds one field at the end. -/
theorem fold_eq_ok_iff {kept : FieldIndex} :
    fields.foldlM (add className) {} = .ok kept ↔ Field.AreConsistent fields ∧ kept = of fields := by
  induction fields using List.reverseRecOn generalizing kept with
  | nil =>
      have consistent : Field.AreConsistent [] := ⟨nofun, .nil, .nil⟩
      have empty : of [] = {} := rfl
      rw [empty]
      simp [consistent, pure, Except.pure, eq_comm]
  | append_singleton seen field ih =>
      rw [List.foldlM_append, bind_eq_ok_iff, Field.areConsistent_concat, of_concat]
      simp only [List.foldlM_cons, List.foldlM_nil, bind_pure, ih, add_eq_ok_iff]
      constructor
      · intro ⟨_, ⟨consistent, found⟩, ⟨itself, primary, parent⟩, kept⟩
        subst found
        have free := nobodyPlays_iff consistent.unambiguous
        rw [itself.role_eq_iff] at primary parent
        exact ⟨⟨consistent, itself, fun held => (free _).mp (primary held),
          fun held => (free _).mp (parent held)⟩, kept⟩
      · intro ⟨⟨consistent, itself, primary, parent⟩, kept⟩
        have free := nobodyPlays_iff consistent.unambiguous
        refine ⟨of seen, ⟨consistent, rfl⟩, ⟨itself, ?primary, ?parent⟩, kept⟩
        case primary =>
          rw [itself.role_eq_iff]
          exact fun held => (free _).mpr (primary held)
        case parent =>
          rw [itself.role_eq_iff]
          exact fun held => (free _).mpr (parent held)

end FieldIndex

/-! ## What is read of a class -/

/-- The index tells of a class what its fields are said to be. -/
structure FieldIndex.Describes (index : FieldIndex) (schema : Schema) : Prop where
  /-- The fields are those of the class, in order. -/
  fields : index.fields.map PlacedField.field = schema.fields
  position : ∀ (position : Nat) (placed : PlacedField),
    index.fields[position]? = some placed → placed.position = position
  role : ∀ placed ∈ index.fields, ∀ role, placed.role = role ↔ placed.field.Plays role
  primaryKey : ∀ position, index.primaryKey = some position ↔
    ∃ placed, index.fields[position]? = some placed ∧ placed.role = .primaryKey
  parentKey : ∀ position, index.parentKey = some position ↔
    ∃ placed, index.fields[position]? = some placed ∧ placed.role = .parentKey
  /-- Relations are listed in order, each once. -/
  increasing : index.relations.Pairwise (· < ·)
  relations : ∀ position, position ∈ index.relations ↔
    ∃ placed, index.fields[position]? = some placed ∧ placed.role = .relation

/-- A class is read as its index tells. -/
structure ClassSchema.ReadsAs (schema : Schema) (index : FieldIndex) : Prop where
  field : ∀ (position : Nat) (field : Field), schema.field position = .ok field ↔
    ∃ placed, index.fields[position]? = some placed ∧ placed.field = field
  role : ∀ placed ∈ index.fields, placed.field.role = placed.role
  primaryKey : schema.primaryKey? = index.primaryKey.bind (schema.fields[·]?)
  parentKey : schema.parentKey? = index.parentKey.bind (schema.fields[·]?)
  relations : schema.positionsOf .relation = index.relations
  /-- Of several fields of one name the first counts. -/
  named : ∀ (name : String) (field : Field), schema.fieldNamed? name = some field ↔
    field.name = name ∧ ∃ before after, schema.fields = before ++ field :: after ∧
      ∀ other ∈ before, other.name ≠ name
  unnamed : ∀ name : String, schema.fieldNamed? name = none ↔
    ∀ field ∈ schema.fields, field.name ≠ name

namespace FieldIndex

theorem getElem?_of {position : Nat} {placed : PlacedField} :
    (of fields).fields[position]? = some placed ↔
      ∃ field, fields[position]? = some field ∧ ⟨field, position, field.role⟩ = placed := by
  rw [of, List.getElem?_map, List.getElem?_zipIdx, Option.map_map, Option.map_eq_some_iff,
    Nat.zero_add]
  rfl

theorem exists_placed_iff {position : Nat} {role : Role} :
    (∃ placed, (of fields).fields[position]? = some placed ∧ placed.role = role) ↔
      ∃ field, fields[position]? = some field ∧ field.role = role := by
  simp only [getElem?_of]
  constructor
  · intro ⟨_, ⟨field, read, made⟩, plays⟩
    subst made
    exact ⟨field, read, plays⟩
  · intro ⟨field, read, plays⟩
    exact ⟨_, ⟨field, read, rfl⟩, plays⟩

/-- Where no two fields are said to play a part, the first that plays it is the only one. -/
theorem findIdx?_eq_some_iff {role : Role} {position : Nat}
    (unambiguous : ∀ field ∈ fields, field.IsUnambiguous)
    (one : fields.Pairwise fun first second => ¬ (first.Plays role ∧ second.Plays role)) :
    (fields.findIdx? fun field => field.role = role) = some position ↔
      ∃ field, fields[position]? = some field ∧ field.role = role := by
  rw [List.findIdx?_eq_some_iff_getElem]
  simp only [decide_eq_true_eq]
  constructor
  · intro ⟨within, plays, _⟩
    exact ⟨fields[position], List.getElem?_eq_getElem within, plays⟩
  · intro ⟨field, read, plays⟩
    obtain ⟨within, same⟩ := List.getElem?_eq_some_iff.mp read
    subst same
    refine ⟨within, plays, ?_⟩
    intro earlier before playsToo
    have earlierWithin : earlier < fields.length := by omega
    have apart := List.pairwise_iff_getElem.mp one earlier position earlierWithin within before
    rw [(unambiguous _ (List.getElem_mem _)).role_eq_iff] at plays playsToo
    exact apart ⟨playsToo, plays⟩

theorem of_describes (schema : Schema) (consistent : Field.AreConsistent schema.fields) :
    (of schema.fields).Describes schema := by
  obtain ⟨unambiguous, onePrimary, oneParent⟩ := consistent
  refine ⟨?fields, ?position, ?role, ?primaryKey, ?parentKey, ?increasing, ?relations⟩
  case fields =>
    rw [of, List.map_map]
    exact List.zipIdx_map_fst 0 schema.fields
  case position =>
    intro position placed found
    obtain ⟨field, _, made⟩ := getElem?_of.mp found
    rw [← made]
  case role =>
    intro placed member role
    obtain ⟨position, found⟩ := List.getElem?_of_mem member
    obtain ⟨field, read, made⟩ := getElem?_of.mp found
    rw [← made]
    exact (unambiguous field (List.mem_of_getElem? read)).role_eq_iff role
  case primaryKey =>
    intro position
    rw [exists_placed_iff]
    exact findIdx?_eq_some_iff unambiguous onePrimary
  case parentKey =>
    intro position
    rw [exists_placed_iff]
    exact findIdx?_eq_some_iff unambiguous oneParent
  case increasing => exact List.pairwise_lt_range.filter _
  case relations =>
    intro position
    rw [exists_placed_iff]
    exact ClassSchema.mem_positionsOf_iff

end FieldIndex

theorem ClassSchema.readsAs (schema : Schema) : schema.ReadsAs (.of schema.fields) := by
  refine ⟨?field, ?role, ?primaryKey, ?parentKey, ?relations, ?named, ?unnamed⟩
  case field =>
    intro position field
    rw [field_eq_ok_iff]
    simp only [FieldIndex.getElem?_of]
    constructor
    · intro read
      exact ⟨_, ⟨field, read, rfl⟩, rfl⟩
    · intro ⟨_, ⟨other, read, made⟩, same⟩
      subst made
      exact same ▸ read
  case role =>
    intro placed member
    obtain ⟨position, found⟩ := List.getElem?_of_mem member
    obtain ⟨field, _, made⟩ := FieldIndex.getElem?_of.mp found
    rw [← made]
  case primaryKey => exact List.find?_eq_bind_findIdx?_getElem?
  case parentKey => exact List.find?_eq_bind_findIdx?_getElem?
  case relations => rfl
  case named =>
    intro name field
    simp [fieldNamed?, List.find?_eq_some_iff_append]
  case unnamed =>
    intro name
    simp [fieldNamed?]

namespace ClassDescription

variable {description : ClassDescription}

/-- The last check of the pass, once the fields are found to be consistent. -/
theorem keyless_iff (unambiguous : ∀ field ∈ description.fields, field.IsUnambiguous) :
    ((FieldIndex.of description.fields).primaryKey.isNone && !description.isEmbeddable) = true ↔
      ¬ (description.isEmbeddable = false →
        ∃ field ∈ description.fields, field.isPrimaryKey = true) := by
  rw [Bool.and_eq_true, Option.isNone_iff_eq_none, Bool.not_eq_true', FieldIndex.of,
    FieldIndex.nobodyPlays_iff unambiguous, and_comm]
  simp [Field.Plays]

/-- **The pass keeps what looking through the fields of a consistent description finds, and accepts
no other description.** -/
theorem index_eq_ok_iff {kept : FieldIndex} :
    description.index = .ok kept ↔ description.IsConsistent ∧ kept = .of description.fields := by
  rw [index, check_bind_eq_ok_iff, mapError_eq_ok_iff, Kind.check_eq_ok_iff, bind_eq_ok_iff]
  simp only [FieldIndex.fold_eq_ok_iff]
  constructor
  · intro ⟨kind, _, ⟨consistent, found⟩, passed⟩
    subst found
    split at passed
    case isTrue => contradiction
    case isFalse keyed =>
      obtain rfl := Except.ok.inj passed
      rw [keyless_iff consistent.unambiguous, not_not] at keyed
      exact ⟨⟨kind, consistent, keyed⟩, rfl⟩
  · intro ⟨⟨kind, consistent, keyed⟩, found⟩
    have passes := (keyless_iff consistent.unambiguous).not.mpr (not_not.mpr keyed)
    refine ⟨kind, .of description.fields, ⟨consistent, rfl⟩, ?_⟩
    rw [if_neg passes, found]
    rfl

theorem build_eq_ok_iff {schema : Schema} :
    description.build = .ok schema ↔
      description.IsConsistent ∧ schema = description.described := by
  rw [build_eq_index, bind_eq_ok_iff]
  simp only [mapError_eq_ok_iff, index_eq_ok_iff, Except.ok.injEq]
  constructor
  · intro ⟨_, ⟨consistent, _⟩, same⟩
    exact ⟨consistent, same.symm⟩
  · intro ⟨consistent, same⟩
    exact ⟨_, ⟨consistent, rfl⟩, same.symm⟩

theorem build_error (inconsistent : ¬ description.IsConsistent) :
    ∃ fault, description.build = .error (.invalidMetadata fault) := by
  cases kept : description.index with
  | error fault =>
      refine ⟨fault, ?_⟩
      rw [build_eq_index, kept]
      rfl
  | ok index => exact (inconsistent (index_eq_ok_iff.mp kept).1).elim

/-- **A class is had from the consistent descriptions and from no others, and what is read of it is
right.** A description that is not consistent is refused as such. Of a class, the index that the pass
keeps tells what its fields are said to be, and the class is read as the index tells. -/
theorem build_iff_consistent (description : ClassDescription) :
    (∀ schema, description.build = .ok schema ↔
      description.IsConsistent ∧ schema = description.described) ∧
    (¬ description.IsConsistent →
      ∃ fault, description.build = .error (.invalidMetadata fault)) ∧
    (∀ schema, description.build = .ok schema → ∃ index, description.index = .ok index ∧
      index.Describes schema ∧ schema.ReadsAs index) := by
  refine ⟨?accepted, ?refused, ?read⟩
  case accepted => exact fun schema => build_eq_ok_iff
  case refused => exact build_error
  case read =>
    intro schema built
    obtain ⟨consistent, same⟩ := build_eq_ok_iff.mp built
    subst same
    have describes := FieldIndex.of_describes description.described consistent.fields
    exact ⟨_, index_eq_ok_iff.mpr ⟨consistent, rfl⟩, describes, description.described.readsAs⟩

/-- Books with their number, their library, their title and their pages. -/
def ofBooks : ClassDescription where
  name := "Book"
  fields := [
    { name := "id", type := .long, isPrimaryKey := true },
    { name := "library", type := .key, isParentKey := true },
    { name := "title", type := .string },
    { name := "pages", type := .list, relation := some (.collection "Page") }]

theorem build_iff_consistent_books :
    ofBooks.build = .ok ofBooks.described ∧
      (∃ index, ofBooks.index = .ok index ∧ index.Describes ofBooks.described ∧
        ofBooks.described.ReadsAs index) ∧
      ∃ fault, { ofBooks with fields := ofBooks.fields ++ ofBooks.fields }.build =
        .error (.invalidMetadata fault) := by
  have consistent : ofBooks.IsConsistent := by decide
  have built : ofBooks.build = .ok ofBooks.described :=
    ((build_iff_consistent ofBooks).1 _).mpr ⟨consistent, rfl⟩
  have twiceKeyed : ¬ { ofBooks with fields := ofBooks.fields ++ ofBooks.fields }.IsConsistent := by
    decide
  exact ⟨built, (build_iff_consistent ofBooks).2.2 _ built,
    (build_iff_consistent _).2.1 twiceKeyed⟩

end ClassDescription

end RecordMapping
