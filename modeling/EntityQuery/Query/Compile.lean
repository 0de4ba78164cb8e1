import EntityQuery.Filter.BindDocument
import EntityQuery.Filter.Catalogue
import EntityQuery.Query.Page
import EntityQuery.Query.Projection
import EntityQuery.Query.Request
import EntityQuery.Query.Sort

/-!
# Compiled queries

`CompiledQuery.compile` resolves a request against the field map of an entity. Only the filter can
fail; sort keys, relations and projected names that the map does not know are dropped. Both forms of
the filter are always made, so that one that works for a row store works for a document store.
-/

namespace EntityQuery

variable {α : Type}

/-- A filter that has been checked, in its bound forms. -/
structure CompiledFilter (α : Type) where
  node : Node
  predicate : Predicate α
  document : DocumentFilter

/-- The query of a document store for one page. -/
structure DocumentQuery where
  filter : Json
  sort : Json.Members
  skip : Nat
  limit : Nat

structure CompiledQuery (α : Type) where
  map : FieldMap α
  /-- No filter lets every entity pass. -/
  filter : Option (CompiledFilter α)
  sort : SortPlan α
  includes : IncludeSet
  page : PageRequest
  projection : Option Projection

def CompiledFilter.ofText (m : FieldMap α) (limits : FilterLimits) (raw : String) :
    Except FilterError (CompiledFilter α) := do
  let n ← checkFilter m limits raw
  let p ← (n.toPredicate m).mapError .bind
  let d ← (n.toDocumentFilter m).mapError .bind
  pure ⟨n, p, d⟩

namespace CompiledQuery

/-- The filter of a request; a blank text is none. -/
def filterOf (m : FieldMap α) (limits : FilterLimits) (raw : Option String) :
    Except FilterError (Option (CompiledFilter α)) :=
  let text := Text.trim (raw.getD "")
  if text = "" then .ok none else (CompiledFilter.ofText m limits text).map some

def compile (m : FieldMap α) (c : QueryConfig) (r : QueryRequest) :
    Except InvalidFilter (CompiledQuery α) := do
  let filter ← (filterOf m c.limits r.filter).mapError (invalidFilter m)
  pure {
    map := m
    filter
    sort := SortPlan.parse m r.sort
    includes := IncludeSet.parse m r.relations
    page := PageRequest.normalize c.paging r.page r.pageSize
    projection := Projection.parse r.fields }

def predicate? (q : CompiledQuery α) : Option (Predicate α) := q.filter.map (·.predicate)

def documentFilter (q : CompiledQuery α) : DocumentFilter :=
  match q.filter with
  | some f => f.document
  | none => .matchAll

/-- Does an entity pass the filter? -/
def accepts (q : CompiledQuery α) (entity : α) : Bool :=
  match q.filter with
  | some f => f.predicate.evaluate entity
  | none => true

def documentQuery (q : CompiledQuery α) : DocumentQuery :=
  ⟨q.documentFilter.json, q.sort.documentSpec, q.page.skip, q.page.limit⟩

/-- An entity as the query shows it. -/
def project (q : CompiledQuery α) (entity : α) : Json.Members :=
  EntityQuery.project q.map q.projection q.includes entity

end CompiledQuery

end EntityQuery
