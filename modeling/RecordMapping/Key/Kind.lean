/-!
# Kinds

Every text but the empty one can be a kind, save those that are reserved: two underscores, any
characters of one line, and two underscores again.
-/

namespace RecordMapping.Kind

/-- Whether a kind is kept for the store's own use. -/
def isReserved (kind : String) : Bool :=
  match kind.toList with
  | '_' :: '_' :: rest => ['_', '_'].isSuffixOf rest && !rest.contains '\n'
  | _ => false

end RecordMapping.Kind
