import EntityQuery.Filter.Node
import EntityQuery.Text.Case
import EntityQuery.Value

/-!
# Literals and types

A literal has a value only at a type. The kind of its shape says which types it may stand for; a
bare word fits texts and GUIDs, and a quoted text also instants and GUIDs.
-/

namespace EntityQuery

/-- The value of a literal at a type, if it has one. -/
def Literal.resolve (l : Literal) (t : FieldType) : Option Value :=
  match t, l.kind with
  | .string, .string | .string, .identifier => some (.string l.text)
  | .number, .number => ((Number.read? l.text).filter Number.isFinite).map .number
  | .boolean, .boolean => some (.boolean (Text.eqIgnoreAsciiCase l.text "true"))
  | .dateTime, .dateTime | .dateTime, .string => (Instant.read? l.text).map .dateTime
  | .guid, .identifier | .guid, .string => (Guid.read? l.text).map .guid
  | _, _ => none

end EntityQuery
