import RecordMapping.Key.Basic
import RecordMapping.Object.Reference
import RecordMapping.Schema.Declaration

/-!
# Why a mapping fails

`MappingError` has one constructor per condition, with the keys, names and counts involved; each
text that a reader sees is made in one of the `message` functions.
-/

namespace RecordMapping

/-- What is wrong with a key that was to be built. -/
inductive KeyFault where
  | emptyKind
  | reservedKind (kind : String)
  | nonPositiveId (id : Int64) (kind : String)
  | emptyName (kind : String)
  | incompleteParent (parent : Key)
  | alreadyComplete (key : Key)
  | incompleteAssigned (key : Key)
  | emptyPath
  | incompleteAncestor (kind : String)
  | nonPositivePathId (id : Int64)
  | emptyPathName
deriving DecidableEq, Repr

/-- What is wrong with a text that was to be read as a key. -/
inductive TokenFault where
  /-- The text, given as it stood, is not base64. -/
  | notBase64 (token : String)
  | unsupportedVersion (version : Nat)
  | truncated
  | unknownTag (tag : Nat)
  | invalidText
  | trailingBytes
  /-- The bytes spell a path that is no key. -/
  | invalidPath (fault : KeyFault)
deriving DecidableEq, Repr

/-- What is wrong with the description of a class. -/
inductive SchemaFault where
  | invalidKind (fault : KeyFault)
  | noFieldAt (className : String) (position : Nat)
  | severalPrimaryKeys (className : String)
  | severalParentKeys (className : String)
  | noPrimaryKey (className : String)
  | severalKeyRoles (qualifiedName : String)
  | relationInKey (qualifiedName : String)
deriving DecidableEq, Repr

/-- Why a value does not fit the field that it was given to. -/
inductive TypeFault where
  | notBasic (valueType : String)
  | notKey (declared : DeclaredType) (valueType : String)
  | roleMismatch (role : Role) (declared : DeclaredType)
  | notEmbedded (valueType : String)
  | tooManyEmbedded (className : String) (count given : Nat)
  | notRelated (valueType : String)
deriving DecidableEq, Repr

/-- What is wrong with a configuration. -/
inductive SettingsFault where
  | zeroThreshold
  /-- The document does not describe a configuration. -/
  | unreadable
deriving DecidableEq, Repr

/-- Which part of a field's description forbids null. -/
inductive NullBan where
  | field
  | column
deriving DecidableEq, Repr

/-- A state in which an operation makes no sense, or a failure of the surroundings. -/
inductive InternalFault where
  | relationsBeforeKey (object : Reference) (key : Key)
  | ancestryRebuilt (current attempted : Key)
  | other (text : String)
deriving DecidableEq, Repr

/-- Why a mapping operation fails. -/
inductive MappingError where
  | conflictingKeyAssignment (className : String) (key : Key)
  | immutableKey (className : String) (current : Key) (attempted : Option Key)
  | immutableAncestry (className : String) (current : Key) (attempted : Option Key)
  | mandatoryFieldNull (field : String) (rule : NullBan)
  | malformedKey (fault : TokenFault)
  | invalidKey (fault : KeyFault)
  | invalidPrimaryKey (className field : String)
  | unsupportedFieldType (field : String) (fault : TypeFault)
  | kindMismatch (expected actual : String)
  | ownedChildReparenting (child parent : Key)
  | unsupportedPolymorphism (actual declared : String)
  | unknownClass (className : String)
  | invalidMetadata (fault : SchemaFault)
  | serialization (text : String)
  | settings (fault : SettingsFault)
  | notYetFlushed (text : String)
  | internal (fault : InternalFault)
deriving DecidableEq, Repr

/-- The result of an operation that may fail. -/
abbrev Outcome (α : Type) := Except MappingError α

def KeyFault.message : KeyFault → String
  | .emptyKind => "kind cannot be empty"
  | .reservedKind kind => s!"kind '{kind}' is reserved"
  | .nonPositiveId id kind => s!"id must be positive, got {id.toInt} for kind {kind}"
  | .emptyName kind => s!"name cannot be empty for kind {kind}"
  | .incompleteParent parent => s!"parent key {parent.display} is incomplete"
  | .alreadyComplete key => s!"key {key.display} is already complete"
  | .incompleteAssigned key => s!"assigned key {key.display} is incomplete"
  | .emptyPath => "key path cannot be empty"
  | .incompleteAncestor kind => s!"ancestor of kind {kind} is incomplete"
  | .nonPositivePathId id => s!"id must be positive, got {id.toInt}"
  | .emptyPathName => "name cannot be empty"

def TokenFault.message : TokenFault → String
  | .notBase64 token => s!"'{token}' is not a key token"
  | .unsupportedVersion version => s!"unsupported token version {version}"
  | .truncated => "truncated key token"
  | .unknownTag tag => s!"unknown identifier tag {tag}"
  | .invalidText => "key token contains invalid UTF-8"
  | .trailingBytes => "trailing bytes in key token"
  | .invalidPath fault => "Invalid key: " ++ fault.message

def SchemaFault.message : SchemaFault → String
  | .invalidKind fault => "Invalid key: " ++ fault.message
  | .noFieldAt className position => s!"class {className} has no field at position {position}"
  | .severalPrimaryKeys className => s!"class {className} declares more than one primary key field"
  | .severalParentKeys className => s!"class {className} declares more than one parent key field"
  | .noPrimaryKey className => s!"class {className} has no primary key field"
  | .severalKeyRoles qualifiedName => s!"field {qualifiedName} carries more than one key role"
  | .relationInKey qualifiedName => s!"relation field {qualifiedName} cannot be part of the key"

def TypeFault.message : TypeFault → String
  | .notBasic valueType => s!"a {valueType} value cannot be stored in a basic field"
  | .notKey declared valueType => s!"key field of type {declared.display} holds a {valueType} value"
  | .roleMismatch role declared => s!"a {role.display} field cannot be of type {declared.display}"
  | .notEmbedded valueType => s!"embedded field holds a {valueType} value"
  | .tooManyEmbedded className count given =>
      s!"embedded {className} has {count} fields but {given} values were given"
  | .notRelated valueType => s!"relation field holds a {valueType} value"

def SettingsFault.message : SettingsFault → String
  | .zeroThreshold => "large_text_threshold must be > 0"
  | .unreadable => "not a configuration document"

def NullBan.message : NullBan → String
  | .field => "it is mandatory in the field metadata"
  | .column => "the column is specified as not-nullable"

def InternalFault.message : InternalFault → String
  | .relationsBeforeKey object key =>
      s!"relations of {object.display} resolved before its key {key.display} was assigned"
  | .ancestryRebuilt current attempted =>
      s!"record {current.display} was already rebuilt with ancestry, refusing to rebuild around " ++
        attempted.display
  | .other text => text

/-- The text of an attempted key, which may have been null. -/
def attemptedText (attempted : Option Key) : String :=
  (attempted.map Key.display).getD "null"

namespace MappingError

/-- The text that a reader sees. -/
def message : MappingError → String
  | .conflictingKeyAssignment className key =>
      s!"Conflicting key assignment: {className} received both a primary key with ancestry (" ++
        key.display ++ ") and a parent key; set exactly one"
  | .immutableKey className current attempted =>
      s!"Attempt was made to modify the primary key of an object of type {className} identified " ++
        s!"by key {current.display}. Primary keys are immutable (new value: " ++
        attemptedText attempted ++ ")"
  | .immutableAncestry className current attempted =>
      s!"Attempt was made to modify the parent of an object of type {className} identified " ++
        s!"by key {current.display}. Parents are immutable (new value: " ++
        attemptedText attempted ++ ")"
  | .mandatoryFieldNull field rule => s!"Field '{field}' is null, but {rule.message}"
  | .malformedKey fault => s!"Malformed key token: {fault.message}"
  | .invalidKey fault => s!"Invalid key: {fault.message}"
  | .invalidPrimaryKey className field =>
      s!"Invalid primary key for {className}: unencoded String primary key {field} cannot be " ++
        "null; use a Long field to have an id assigned"
  | .unsupportedFieldType field fault => s!"Unsupported type for field '{field}': {fault.message}"
  | .kindMismatch expected actual =>
      s!"Attempt was made to set the key of an entity with kind {expected} to a key with kind " ++
        actual
  | .ownedChildReparenting child parent =>
      s!"Owned child with key {child.display} cannot be assigned to parent {parent.display}: " ++
        "owned children cannot change parent"
  | .unsupportedPolymorphism actual declared =>
      s!"Received a child of type {actual} for a field of type {declared}; polymorphism in " ++
        "relationships is only supported for the new-table and superclass-table inheritance " ++
        "strategies"
  | .unknownClass className => s!"No metadata registered for class '{className}'"
  | .invalidMetadata fault => s!"Invalid metadata: {fault.message}"
  | .serialization text => s!"Serialization error: {text}"
  | .settings fault => s!"Configuration error: {fault.message}"
  | .notYetFlushed text => s!"Object not yet flushed: {text}"
  | .internal fault => s!"Internal error: {fault.message}"

/-- Whether the failure only says that another object is not stored yet, so that trying again
later may succeed. -/
def isProvisional : MappingError → Bool
  | .notYetFlushed _ => true
  | _ => false

end MappingError

end RecordMapping
