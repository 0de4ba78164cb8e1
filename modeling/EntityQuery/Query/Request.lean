import EntityQuery.Json.Fields

/-!
# Query requests

A request asks for a page of entities: by which filter, in which order, with which fields and which
relations. Everything may be left out.
-/

namespace EntityQuery

structure QueryRequest where
  filter : Option String := none
  /-- Sort keys with commas between them, descending behind a minus. -/
  sort : Option String := none
  page : Option Int := none
  pageSize : Option Int := none
  /-- Names of fields, and of fields of relations behind a dot. -/
  fields : Option String := none
  /-- Names of relations to load. -/
  relations : Option String := none
  deriving DecidableEq, Repr

namespace QueryRequest

def nullableText : Option String → Json
  | none => .null
  | some s => .string s

def nullableInt : Option Int → Json
  | none => .null
  | some n => .int n

def toJson (r : QueryRequest) : Json :=
  .object [("filter", nullableText r.filter), ("sort", nullableText r.sort),
    ("page", nullableInt r.page), ("pageSize", nullableInt r.pageSize),
    ("fields", nullableText r.fields), ("include", nullableText r.relations)]

def fieldNames : List String := ["filter", "sort", "page", "pageSize", "fields", "include"]

/-- A field of a request; a missing one is as good as null. -/
def field? {α : Type} (read : Json → Option α) : Option Json → Option (Option α)
  | none => some none
  | some j => j.nullable? read

def ofJson? (j : Json) : Option QueryRequest := do
  match ← (← j.fields?).collect? fieldNames with
  | [filter, sort, page, pageSize, fields, relations] =>
    pure {
      filter := ← field? Json.string? filter
      sort := ← field? Json.string? sort
      page := ← field? Json.int64? page
      pageSize := ← field? Json.int64? pageSize
      fields := ← field? Json.string? fields
      relations := ← field? Json.string? relations }
  | _ => none

end QueryRequest

end EntityQuery
