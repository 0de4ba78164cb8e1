import EntityQuery.Entity.Maps
import EntityQuery.Json.Reader
import EntityQuery.Json.Writer
import EntityQuery.Sql.Statement

/-!
# Serving hosts

A host program names an entity and passes texts; it is answered with JSON text or with an error.
`Host.describe` says what may be asked of an entity, `Host.compile` compiles a request, and
`Host.check` checks a filter, under the default settings. Errors have a kind, a message and, where
there is one, a place or a field.
-/

namespace EntityQuery.Host

def version : String := "0.1.0"

/-- A text from a host, which may be missing or not be text at all. -/
inductive Argument where
  | missing
  | malformed
  | text (s : String)
  deriving DecidableEq, Repr

inductive HostError where
  | missing (what : String)
  | malformed (what : String)
  | unreadableRequest
  | unknownEntity (name : String)
  | invalidFilter (e : InvalidFilter)
  deriving DecidableEq, Repr

namespace HostError

def kind : HostError → String
  | missing _ | malformed _ | unreadableRequest => "InternalError"
  | unknownEntity _ => "UnknownEntity"
  | invalidFilter e => e.error.kind

def message : HostError → String
  | missing what => what ++ " is null"
  | malformed what => "Invalid " ++ what ++ " UTF-8"
  | unreadableRequest => "Request deserialization error"
  | unknownEntity name => "Unknown entity: " ++ name
  | invalidFilter e => e.message

/-- The place of a fault in a filter text, or the field it is about. -/
def details : HostError → List (String × Json)
  | invalidFilter ⟨.syntaxError e, _⟩ =>
    [("fragment", .string e.fragment), ("position", .int e.position)]
  | invalidFilter ⟨.validation e, _⟩ =>
    match e.field? with
    | some f => [("field", .string f)]
    | none => []
  | _ => []

def toJson (e : HostError) : Json :=
  .object ([("kind", .string e.kind), ("message", .string e.message)] ++ e.details)

/-- The result code of a check that fails. -/
def code : HostError → Nat
  | invalidFilter ⟨.syntaxError _, _⟩ => 1
  | invalidFilter _ => 2
  | unknownEntity _ => 3
  | _ => 4

end HostError

def Argument.read (what : String) : Argument → Except HostError String
  | missing => .error (.missing what)
  | malformed => .error (.malformed what)
  | text s => .ok s

/-- What is done for every kind of entity, done for the one with a name. -/
def withMap {β : Type} (name : String) (visit : {α : Type} → FieldMap α → Except HostError β) :
    Except HostError β :=
  match EntityKind.ofName? name with
  | some .asset => visit Asset.map
  | some .company => visit Company.map
  | some .organization => visit Organization.map
  | none => .error (.unknownEntity name)

/-! ## Answers -/

def texts (names : List String) : Json := .array (names.map .string)

def fieldDescription (d : FieldDescription) : Json :=
  .object [("name", .string d.name), ("fieldType", .string d.type.name),
    ("operators", texts d.operators)]

variable {α : Type}

def description (m : FieldMap α) : Json :=
  .object [("entity", .string m.entity),
    ("filterable", .array ((describeFields m).map fieldDescription)),
    ("sortable", texts ((m.fields.entries.filter (·.canSort)).map (·.name))),
    ("selectable", texts ((m.fields.entries.filter (·.canSelect)).map (·.name))),
    ("includes", texts (m.relations.entries.map (·.name)))]

def relationStatement (s : Sql.RelationStatement) : Json :=
  .object [("relation", .string s.relation), ("parentColumn", .string s.parentColumn),
    ("sql", .string s.sql)]

def statements (s : Sql.Statements) : Json :=
  .object [("mainQuery", .string s.page), ("countQuery", .string s.count),
    ("params", .array s.parameters),
    ("eagerQueries", .array (s.relations.map relationStatement))]

def documentQuery (d : DocumentQuery) : Json :=
  .object [("filter", d.filter), ("sort", .object d.sort), ("skip", .int d.skip),
    ("limit", .int d.limit)]

def compiled (q : CompiledQuery α) : Json :=
  .object [("entity", .string q.map.entity),
    ("filter", match q.filter with
      | some f => .string f.node.text
      | none => .null),
    ("sql", statements (Sql.Statements.ofQuery q)), ("document", documentQuery q.documentQuery),
    ("page", .int q.page.page), ("pageSize", .int q.page.pageSize),
    ("includes", texts q.includes.names)]

/-! ## Calls -/

def describe (entity : Argument) : Except HostError String := do
  let name ← entity.read "entity"
  withMap name fun m => .ok (description m).pretty

def compile (entity request : Argument) : Except HostError String := do
  let name ← entity.read "entity"
  let raw ← request.read "request"
  match (Json.ofRecordText? QueryRequest.fieldNames raw).bind QueryRequest.ofJson? with
  | none => .error .unreadableRequest
  | some r => withMap name fun m => do
    let q ← (CompiledQuery.compile m {} r).mapError .invalidFilter
    pure (compiled q).pretty

def check (entity filter : Argument) : Except HostError Unit := do
  let name ← entity.read "entity"
  let raw ← filter.read "filter"
  withMap name fun m =>
    match checkFilter m {} raw with
    | .ok _ => .ok ()
    | .error e => .error (.invalidFilter (invalidFilter m e))

end EntityQuery.Host
