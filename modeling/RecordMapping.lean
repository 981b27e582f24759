import RecordMapping.Attempt
import RecordMapping.Bytes.Base64Url
import RecordMapping.Bytes.Endian
import RecordMapping.Document.Reader
import RecordMapping.Document.Tree
import RecordMapping.Document.Writer
import RecordMapping.Draft.Basic
import RecordMapping.Draft.Key
import RecordMapping.Draft.Placement
import RecordMapping.Draft.Population
import RecordMapping.Draft.Resolution
import RecordMapping.Error
import RecordMapping.Framework
import RecordMapping.Key.Basic
import RecordMapping.Key.Build
import RecordMapping.Key.Kind
import RecordMapping.Key.Token
import RecordMapping.Mapper.Basic
import RecordMapping.Mapper.Conversion
import RecordMapping.MessagePack.Writer
import RecordMapping.Number.Binary64
import RecordMapping.Number.Layout
import RecordMapping.Number.Shortest
import RecordMapping.Object.Reading
import RecordMapping.Object.Reference
import RecordMapping.ParentRegistry
import RecordMapping.Proofs.Attempt
import RecordMapping.Proofs.Attempt.Agreement
import RecordMapping.Proofs.Bytes.Base64Url
import RecordMapping.Proofs.Bytes.Endian
import RecordMapping.Proofs.Draft.Ancestry
import RecordMapping.Proofs.Draft.Assignment
import RecordMapping.Proofs.Draft.Atomicity
import RecordMapping.Proofs.Draft.ChangeDetection
import RecordMapping.Proofs.Draft.ChildKeys
import RecordMapping.Proofs.Draft.ChildrenFirst
import RecordMapping.Proofs.Draft.Confirmation
import RecordMapping.Proofs.Draft.Discipline
import RecordMapping.Proofs.Draft.EagerKeys
import RecordMapping.Proofs.Draft.FailedFields
import RecordMapping.Proofs.Draft.Flattening
import RecordMapping.Proofs.Draft.IdentifierFields
import RecordMapping.Proofs.Draft.Identity
import RecordMapping.Proofs.Draft.Idleness
import RecordMapping.Proofs.Draft.InPlace
import RecordMapping.Proofs.Draft.Key
import RecordMapping.Proofs.Draft.KeyParts
import RecordMapping.Proofs.Draft.Leaves
import RecordMapping.Proofs.Draft.Likeness
import RecordMapping.Proofs.Draft.LostRelations
import RecordMapping.Proofs.Draft.NullRules
import RecordMapping.Proofs.Draft.Omission
import RecordMapping.Proofs.Draft.Ownership
import RecordMapping.Proofs.Draft.PassedRegistry
import RecordMapping.Proofs.Draft.Placement
import RecordMapping.Proofs.Draft.Population
import RecordMapping.Proofs.Draft.Registration
import RecordMapping.Proofs.Draft.Repetition
import RecordMapping.Proofs.Draft.Replacement
import RecordMapping.Proofs.Draft.Resaving
import RecordMapping.Proofs.Draft.Resolution
import RecordMapping.Proofs.Draft.Run
import RecordMapping.Proofs.Draft.Scopes
import RecordMapping.Proofs.Draft.Sightings
import RecordMapping.Proofs.Draft.Turn
import RecordMapping.Proofs.Draft.WellFormed
import RecordMapping.Proofs.Draft.WholeKey
import RecordMapping.Proofs.Draft.Wrappers
import RecordMapping.Proofs.Framework
import RecordMapping.Proofs.Framework.Course
import RecordMapping.Proofs.Framework.Log
import RecordMapping.Proofs.Framework.Minutes
import RecordMapping.Proofs.Key.Build
import RecordMapping.Proofs.Key.Constructible
import RecordMapping.Proofs.Key.Forest
import RecordMapping.Proofs.Key.Reserved
import RecordMapping.Proofs.Key.Token
import RecordMapping.Proofs.Key.TokenLength
import RecordMapping.Proofs.Key.WellFormed
import RecordMapping.Proofs.MessagePack.Lead
import RecordMapping.Proofs.MessagePack.Values
import RecordMapping.Proofs.Number.Binary64
import RecordMapping.Proofs.Outcome
import RecordMapping.Proofs.Record
import RecordMapping.Proofs.Record.History
import RecordMapping.Proofs.Schema.FieldIndex
import RecordMapping.Proofs.Text.Blank
import RecordMapping.Proofs.Time.Calendar
import RecordMapping.Proofs.Time.Reading
import RecordMapping.Proofs.Time.Timestamp
import RecordMapping.Proofs.Value.Plain
import RecordMapping.Proofs.Value.Sameness
import RecordMapping.Proofs.Value.Stored
import RecordMapping.Record
import RecordMapping.Schema.Class
import RecordMapping.Schema.Declaration
import RecordMapping.Schema.Field
import RecordMapping.Schema.Relation
import RecordMapping.Session.Basic
import RecordMapping.Session.Save
import RecordMapping.Settings.Basic
import RecordMapping.Settings.Reading
import RecordMapping.Text.Blank
import RecordMapping.Text.Hexadecimal
import RecordMapping.Time.Calendar
import RecordMapping.Time.Reading
import RecordMapping.Time.Timestamp
import RecordMapping.Value.Field
import RecordMapping.Value.Reading
import RecordMapping.Value.Storage
