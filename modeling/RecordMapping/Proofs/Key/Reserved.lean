import RecordMapping.Proofs.Key.Constructible
import RecordMapping.Schema.Class

/-!
# Reserved kinds

Kinds that begin and end with two underscores are kept for the store's own use. The check of kinds
reads one line only, so it lets such a kind pass that has a line feed between its underscores. It is
the one check there is: the kinds that keys and classes are found to have are those that it passes,
and the kinds that are refused are all others (`Kind.found_or_refused`).
-/

namespace RecordMapping

variable {ε ε' α β : Type}

namespace Kind

variable {kind : String}

/-- The form of the kinds that are kept for the store's own use: two underscores, any characters, and
two more underscores. -/
structure HasReservedForm (kind : String) : Prop where
  long : 4 ≤ kind.toList.length
  opens : ['_', '_'] <+: kind.toList
  closes : ['_', '_'] <:+ kind.toList

theorem hasReservedForm_iff_and :
    HasReservedForm kind ↔
      4 ≤ kind.toList.length ∧ ['_', '_'] <+: kind.toList ∧ ['_', '_'] <:+ kind.toList :=
  ⟨fun ⟨long, opens, closes⟩ => ⟨long, opens, closes⟩, fun ⟨long, opens, closes⟩ =>
    ⟨long, opens, closes⟩⟩

instance (kind : String) : Decidable (HasReservedForm kind) :=
  decidable_of_iff' _ hasReservedForm_iff_and

/-- The underscores at the two ends are four. -/
example : HasReservedForm "____" ∧ ¬ HasReservedForm "___" := by decide

theorem hasReservedForm_iff :
    HasReservedForm kind ↔ ∃ rest, kind.toList = '_' :: '_' :: rest ∧ ['_', '_'] <:+ rest := by
  constructor
  · intro form
    obtain ⟨rest, split⟩ := form.opens
    have around : ['_', '_'] <:+ ['_', '_'] ++ rest := split ▸ form.closes
    have long : 4 ≤ (['_', '_'] ++ rest).length := split ▸ form.long
    have room : ['_', '_'].length ≤ rest.length := by
      simp only [List.length_append, List.length_cons, List.length_nil] at long ⊢
      omega
    have after : rest <:+ ['_', '_'] ++ rest := List.suffix_append _ _
    exact ⟨rest, split.symm, List.suffix_of_suffix_length_le around after room⟩
  · intro ⟨rest, split, closes⟩
    have room : 2 ≤ rest.length := closes.length_le
    refine ⟨?long, ?opens, ?closes⟩
    case long =>
      rw [split]
      simp only [List.length_cons]
      omega
    case opens => exact ⟨rest, split.symm⟩
    case closes => exact split ▸ closes.trans (List.suffix_append ['_', '_'] rest)

theorem isReserved_iff :
    isReserved kind = true ↔ HasReservedForm kind ∧ '\n' ∉ kind.toList := by
  rw [hasReservedForm_iff, isReserved]
  split
  case h_1 rest split =>
    simp [split]
  case h_2 other =>
    simp only [Bool.false_eq_true, false_iff]
    intro ⟨⟨rest, split, _⟩, _⟩
    exact other rest split

/-- The kinds that pass the check, by their form. -/
theorem isValid_iff :
    IsValid kind ↔ kind ≠ "" ∧ (HasReservedForm kind → '\n' ∈ kind.toList) := by
  rw [IsValid, ← Bool.not_eq_true, isReserved_iff, not_and, not_not]

/-! ## Where kinds are found -/

/-- Some key that can be had has a level of the kind. -/
def InKey (kind : String) : Prop :=
  ∃ key : Key, key.Obtainable ∧ ∃ segment ∈ key.path, segment.kind = kind

/-- Some class that is accepted has the kind. -/
def OfClass (kind : String) : Prop :=
  ∃ (description : ClassDescription) (schema : Schema),
    description.build = .ok schema ∧ schema.kind = kind

end Kind

/-! ## Where kinds are refused -/

/-- The kind that a fault of a key finds wrong. -/
def KeyFault.refusedKind? : KeyFault → Option String
  | .emptyKind => some ""
  | .reservedKind kind => some kind
  | _ => none

/-- The kind that a fault of a token finds wrong. -/
def TokenFault.refusedKind? : TokenFault → Option String
  | .invalidPath fault => fault.refusedKind?
  | _ => none

/-- The kind that a fault of a class's description finds wrong. -/
def SchemaFault.refusedKind? : SchemaFault → Option String
  | .invalidKind fault => fault.refusedKind?
  | _ => none

namespace Kind

variable {kind : String}

/-- Some operation that gives keys or classes finds the kind wrong. -/
inductive Refused (kind : String) : Prop where
  | build {parent : Option Key} {tried : String} {identifier : Identifier} {fault : KeyFault}
      (failed : Key.build parent tried identifier = .error fault)
      (blames : fault.refusedKind? = some kind)
  | incomplete {parent : Option Key} {tried : String} {fault : KeyFault}
      (failed : Key.incomplete tried parent = .error fault)
      (blames : fault.refusedKind? = some kind)
  | movedUnder {key parent : Key} {fault : KeyFault} (failed : key.movedUnder parent = .error fault)
      (blames : fault.refusedKind? = some kind)
  | withId {key : Key} {id : Int64} {fault : KeyFault} (failed : key.withId id = .error fault)
      (blames : fault.refusedKind? = some kind)
  | ofToken {text : String} {fault : TokenFault}
      (failed : Key.ofToken text = .error (.malformedKey fault))
      (blames : fault.refusedKind? = some kind)
  | ofClass {description : ClassDescription} {fault : SchemaFault}
      (failed : description.build = .error (.invalidMetadata fault))
      (blames : fault.refusedKind? = some kind)

/-! ## Nothing is refused that the check lets pass -/

/-- A computation whose faults find no kind wrong that keys may have. -/
def FairlyRefused (blame : ε → Option String) (outcome : Except ε α) : Prop :=
  ∀ fault kind, outcome = .error fault → blame fault = some kind → ¬ IsValid kind

namespace FairlyRefused

variable {blame : ε → Option String}

theorem ok (value : α) : FairlyRefused blame (.ok value) := by
  intro _ _ failed
  contradiction

theorem error {fault : ε} (blameless : blame fault = none) :
    FairlyRefused blame (.error fault : Except ε α) := by
  intro _ _ failed blames
  obtain rfl := Except.error.inj failed
  rw [blameless] at blames
  contradiction

theorem ite {condition : Prop} [Decidable condition] {first second : Except ε α}
    (fair : FairlyRefused blame first) (fairElse : FairlyRefused blame second) :
    FairlyRefused blame (if condition then first else second) := by
  split
  · exact fair
  · exact fairElse

theorem bind {first : Except ε α} {next : α → Except ε β} (fair : FairlyRefused blame first)
    (fairNext : ∀ value, FairlyRefused blame (next value)) :
    FairlyRefused blame (first >>= next) := by
  intro fault kind failed
  obtain failed | ⟨value, -, failed⟩ := bind_eq_error_iff.mp failed
  · exact fair fault kind failed
  · exact fairNext value fault kind failed

/-- A fault that is reported as the cause of another finds the same kind wrong. -/
theorem mapError {outcome : Except ε α} {change : ε → ε'} {blame' : ε' → Option String}
    (fair : FairlyRefused blame outcome) (same : ∀ cause, blame' (change cause) = blame cause) :
    FairlyRefused blame' (outcome.mapError change) := by
  intro fault kind failed blames
  obtain ⟨cause, caused, rfl⟩ := mapError_eq_error_iff.mp failed
  exact fair cause kind caused (same cause ▸ blames)

end FairlyRefused

open FairlyRefused

theorem check_refuses (invalid : ¬ IsValid kind) :
    ∃ fault, check kind = .error fault ∧ fault.refusedKind? = some kind := by
  rw [← check_eq_ok_iff] at invalid
  unfold check at invalid ⊢
  split at invalid
  case isTrue empty =>
    obtain rfl := String.isEmpty_iff.mp empty
    exact ⟨.emptyKind, rfl, rfl⟩
  case isFalse inhabited =>
    split at invalid
    case isTrue reserved => exact ⟨.reservedKind kind, by simp [inhabited, reserved], rfl⟩
    case isFalse => exact (invalid rfl).elim

theorem check_fair : FairlyRefused KeyFault.refusedKind? (check kind) := by
  intro fault refused failed blames
  by_cases valid : IsValid kind
  · rw [check_eq_ok_iff.mpr valid] at failed
    contradiction
  · obtain ⟨reported, known, blamed⟩ := check_refuses valid
    obtain rfl := Except.error.inj (failed.symm.trans known)
    obtain rfl := Option.some.inj (blames.symm.trans blamed)
    exact valid

theorem lineageUnder_fair (parent : Option Key) :
    FairlyRefused KeyFault.refusedKind? (Key.lineageUnder parent) := by
  cases parent with
  | none => exact ok []
  | some parent =>
      rw [Key.lineageUnder]
      split
      · exact error rfl
      · exact ok _

theorem build_fair {parent : Option Key} {identifier : Identifier} :
    FairlyRefused KeyFault.refusedKind? (Key.build parent kind identifier) := by
  have fairIdentifier : FairlyRefused KeyFault.refusedKind? (identifier.check kind) := by
    cases identifier with
    | id value => exact ite (error rfl) (ok ())
    | name value => exact ite (error rfl) (ok ())
  exact (lineageUnder_fair parent).bind fun _ =>
    check_fair.bind fun _ => fairIdentifier.bind fun _ => ok _

/-! ### Paths and tokens -/

theorem ancestorsOf_fair (levels : List Segment) :
    FairlyRefused KeyFault.refusedKind? (Key.ancestorsOf levels) := by
  induction levels with
  | nil => exact ok []
  | cons level rest ih =>
      obtain ⟨kind, _ | identifier⟩ := level
      · exact error rfl
      · exact ih.bind fun _ => ok _

theorem segments_fair (path : List Segment) :
    FairlyRefused KeyFault.refusedKind? (path.forM Segment.check) := by
  induction path with
  | nil => exact ok ()
  | cons first rest ih =>
      obtain ⟨kind, _ | value | value⟩ := first
      · exact (check_fair.bind fun _ => ok ()).bind fun _ => ih
      · exact (check_fair.bind fun _ => ite (error rfl) (ok ())).bind fun _ => ih
      · exact (check_fair.bind fun _ => ite (error rfl) (ok ())).bind fun _ => ih

theorem ofPath_fair (path : List Segment) :
    FairlyRefused KeyFault.refusedKind? (Key.ofPath path) := by
  unfold Key.ofPath
  split
  · exact error rfl
  · exact (ancestorsOf_fair _).bind fun _ => (segments_fair path).bind fun _ => ok _

section Reading

open Key.Token

variable (bytes : List UInt8)

theorem take_fair (count : Nat) : FairlyRefused TokenFault.refusedKind? (take count bytes) :=
  ite (error rfl) (ok _)

theorem takeByte_fair : FairlyRefused TokenFault.refusedKind? (takeByte bytes) := by
  cases bytes with
  | nil => exact error rfl
  | cons byte rest => exact ok _

theorem takeNumber_fair : FairlyRefused TokenFault.refusedKind? (takeNumber bytes) :=
  (take_fair bytes 8).bind fun _ => ok _

theorem takeText_fair : FairlyRefused TokenFault.refusedKind? (takeText bytes) := by
  apply (takeNumber_fair bytes).bind
  intro ⟨length, rest⟩
  apply (take_fair rest length).bind
  intro ⟨text, rest⟩
  cases found : String.fromUTF8? ⟨text.toArray⟩ with
  | none => simp only [found]; exact error rfl
  | some text => simp only [found]; exact ok _

theorem takeIdentifier_fair : FairlyRefused TokenFault.refusedKind? (takeIdentifier bytes) := by
  apply (takeByte_fair bytes).bind
  intro ⟨tag, rest⟩
  apply ite (ok _)
  apply ite ((takeNumber_fair rest).bind fun _ => ok _)
  exact ite ((takeText_fair rest).bind fun _ => ok _) (error rfl)

theorem takePath_fair (count : Nat) :
    FairlyRefused TokenFault.refusedKind? (takePath count bytes) := by
  induction count generalizing bytes with
  | zero => exact ok _
  | succ count ih =>
      apply (takeText_fair bytes).bind
      intro ⟨kind, rest⟩
      apply (takeIdentifier_fair rest).bind
      intro ⟨identifier, rest⟩
      exact (ih rest).bind fun _ => ok _

theorem pathOf_fair : FairlyRefused TokenFault.refusedKind? (pathOf bytes) := by
  apply (takeByte_fair bytes).bind
  intro ⟨found, rest⟩
  apply ite (error rfl)
  apply (takeNumber_fair rest).bind
  intro ⟨count, rest⟩
  apply (takePath_fair rest count).bind
  intro ⟨path, rest⟩
  exact ite (ok _) (error rfl)

end Reading

theorem read_fair (text : String) :
    FairlyRefused TokenFault.refusedKind? (Key.Token.read text) := by
  unfold Key.Token.read
  split
  · exact error rfl
  · exact (pathOf_fair _).bind fun path => (ofPath_fair path).mapError fun _ => rfl

/-! ### Classes -/

theorem checkFields_fair (className : String) (hasPrimary hasParent : Bool) (fields : List Field) :
    FairlyRefused SchemaFault.refusedKind?
      (ClassDescription.checkFields className hasPrimary hasParent fields) := by
  induction fields generalizing hasPrimary hasParent with
  | nil => exact ok _
  | cons field rest ih =>
      have flags : FairlyRefused SchemaFault.refusedKind? (field.checkKeyFlags className) :=
        ite (error rfl) (ite (error rfl) (ok ()))
      apply flags.bind
      intro _
      cases field.role with
      | primaryKey => exact ite (error rfl) (ih true hasParent)
      | parentKey => exact ite (error rfl) (ih hasPrimary true)
      | primaryKeyName => exact ih hasPrimary hasParent
      | primaryKeyId => exact ih hasPrimary hasParent
      | regular => exact ih hasPrimary hasParent
      | relation => exact ih hasPrimary hasParent

theorem description_fair (description : ClassDescription) :
    FairlyRefused SchemaFault.refusedKind? description.check := by
  have kind : FairlyRefused SchemaFault.refusedKind?
      ((check description.effectiveKind).mapError .invalidKind) :=
    check_fair.mapError fun _ => rfl
  apply kind.bind
  intro _
  apply (checkFields_fair description.name false false description.fields).bind
  intro _
  exact ite (error rfl) (ok ())

/-- The kind that an operation refuses is never one that passes the check. -/
theorem Refused.not_isValid (refused : Refused kind) : ¬ IsValid kind := by
  cases refused with
  | build failed blames => exact build_fair _ kind failed blames
  | @incomplete parent _ fault failed blames =>
      have fair : ∀ tried, FairlyRefused KeyFault.refusedKind? (Key.incomplete tried parent) :=
        fun _ => check_fair.bind fun _ => (lineageUnder_fair parent).bind fun _ => ok _
      exact fair _ fault kind failed blames
  | @movedUnder key parent fault failed blames =>
      have fair : FairlyRefused KeyFault.refusedKind? (key.movedUnder parent) :=
        (lineageUnder_fair (some parent)).bind fun _ => ok _
      exact fair fault kind failed blames
  | @withId key id fault failed blames =>
      have fair : FairlyRefused KeyFault.refusedKind? (key.withId id) := ite (error rfl) build_fair
      exact fair fault kind failed blames
  | @ofToken text fault failed blames =>
      obtain ⟨cause, unread, same⟩ := mapError_eq_error_iff.mp failed
      obtain rfl := MappingError.malformedKey.inj same
      exact read_fair text cause kind unread blames
  | @ofClass description fault failed blames =>
      obtain refused | ⟨_, _, built⟩ := bind_eq_error_iff.mp failed
      · obtain ⟨cause, unchecked, same⟩ := mapError_eq_error_iff.mp refused
        obtain rfl := MappingError.invalidMetadata.inj same
        exact description_fair description cause kind unchecked blames
      · contradiction

/-! ## The kinds that are found, and the others -/

theorem build_of_isValid (valid : IsValid kind) :
    Key.build none kind (.id 1) = .ok ⟨[], kind, some (.id 1)⟩ := by
  rw [Key.build, check_eq_ok_iff.mpr valid]
  rfl

theorem inKey_iff : InKey kind ↔ IsValid kind := by
  constructor
  · intro ⟨key, had, segment, level, same⟩
    exact same ▸ (had.isWellFormed segment level).kind
  · intro valid
    have root : ∀ above, (none : Option Key) = some above → above.Obtainable := nofun
    exact ⟨_, .build root (build_of_isValid valid), _, List.mem_singleton_self _, rfl⟩

theorem ofClass_iff : OfClass kind ↔ IsValid kind := by
  constructor
  · intro ⟨description, schema, built, same⟩
    obtain ⟨consistent, made⟩ := check_bind_eq_ok_iff.mp built
    obtain rfl := Except.ok.inj made
    obtain ⟨checked, -⟩ := check_bind_eq_ok_iff.mp (mapError_eq_ok_iff.mp consistent)
    rw [mapError_eq_ok_iff, check_eq_ok_iff] at checked
    exact same ▸ checked
  · intro valid
    have built : ClassDescription.build ⟨kind, none, .newTable, true, []⟩ =
        .ok ⟨kind, kind, .newTable, true, []⟩ := by
      rw [ClassDescription.build, ClassDescription.check, ClassDescription.effectiveKind,
        Option.getD_none, check_eq_ok_iff.mpr valid]
      rfl
    exact ⟨_, _, built, rfl⟩

theorem refused_iff : Refused kind ↔ ¬ IsValid kind := by
  constructor
  · exact Refused.not_isValid
  · intro invalid
    obtain ⟨fault, refused, blames⟩ := check_refuses invalid
    have failed : Key.build none kind (.id 1) = .error fault := by
      rw [Key.build, refused]
      rfl
    exact .build failed blames

/-- **The kinds that keys and classes have are those that no operation refuses.** They are the ones
that are not empty and that, if they are of the reserved form, hold a line feed. -/
theorem found_or_refused (kind : String) :
    (InKey kind ↔ kind ≠ "" ∧ (HasReservedForm kind → '\n' ∈ kind.toList)) ∧
    (OfClass kind ↔ kind ≠ "" ∧ (HasReservedForm kind → '\n' ∈ kind.toList)) ∧
    (Refused kind ↔ kind = "" ∨ HasReservedForm kind ∧ '\n' ∉ kind.toList) := by
  refine ⟨?inKey, ?ofClass, ?refused⟩
  case inKey => rw [inKey_iff, isValid_iff]
  case ofClass => rw [ofClass_iff, isValid_iff]
  case refused => rw [refused_iff, isValid_iff, not_and_or, not_not, Classical.not_imp]

/-- A kind of the reserved form whose underscores are on two lines is had in a key and in a class. -/
theorem not_kept_out_on_two_lines :
    HasReservedForm "__a\n__" ∧ InKey "__a\n__" ∧ OfClass "__a\n__" := by
  have valid : IsValid "__a\n__" := by decide
  have form : HasReservedForm "__a\n__" := by decide
  exact ⟨form, inKey_iff.mpr valid, ofClass_iff.mpr valid⟩

end Kind

end RecordMapping
