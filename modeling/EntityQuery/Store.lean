import EntityQuery.Query.Compile

/-!
# Stores in memory

A row store holds entities and a document store holds their documents. Both answer a compiled query
by filtering, sorting and cutting out a page; a query that has been cancelled gives no page. The
filter is compiled before a cancellation is seen. What a store answers with any sort of the library
is `fetchBy`: there is no answer at all if the sort breaks off. The stores that run here have
`fetch`, whose sort is insertion.
-/

namespace EntityQuery

variable {α β : Type}

inductive QueryFailure where
  | invalidFilter (e : InvalidFilter)
  | cancelled
  deriving DecidableEq, Repr

def cancelledText : String := "query was cancelled"

/-- The page of the items that pass a filter, in order. -/
def pageOf (q : CompiledQuery α) (selected : β → Bool) (sort : List β → List β)
    (items : List β) : Page β :=
  let matched := items.filter selected
  .ofItems (q.page.slice (sort matched)) q.page matched.length

/-- The page of the items that pass a filter, in the order of a sort that may break off. -/
def pageOf? (q : CompiledQuery α) (selected : β → Bool) (sort : List β → Option (List β))
    (items : List β) : Option (Page β) :=
  let matched := items.filter selected
  (sort matched).map fun sorted => .ofItems (q.page.slice sorted) q.page matched.length

structure RowStore (α : Type) where
  rows : List α

structure DocumentStore where
  documents : List Json

def RowStore.fetch (s : RowStore α) (q : CompiledQuery α) : Page α :=
  pageOf q q.accepts q.sort.apply s.rows

def RowStore.fetchBy (s : RowStore α) (sorter : Sorter) (q : CompiledQuery α) : Option (Page α) :=
  pageOf? q q.accepts (sorter.run q.sort.compare) s.rows

/-- The entities as stored documents. -/
def DocumentStore.ofEntities (m : FieldMap α) (rows : List α) : DocumentStore :=
  ⟨rows.map m.toDocument⟩

def DocumentStore.fetch (s : DocumentStore) (q : CompiledQuery α) : Page Json :=
  pageOf q q.documentFilter.selects q.sort.applyDocuments s.documents

def DocumentStore.fetchBy (s : DocumentStore) (sorter : Sorter) (q : CompiledQuery α) :
    Option (Page Json) :=
  pageOf? q q.documentFilter.selects (sorter.run q.sort.compareDocuments) s.documents

/-- Compiles a request and has it fetched, unless it has been cancelled. -/
def runQuery (m : FieldMap α) (c : QueryConfig) (cancelled : Bool) (r : QueryRequest)
    (fetch : CompiledQuery α → Page β) : Except QueryFailure (Page β) := do
  let q ← (CompiledQuery.compile m c r).mapError .invalidFilter
  if cancelled then .error .cancelled else .ok (fetch q)

/-- The same where fetching may break off. -/
def runQuery? (m : FieldMap α) (c : QueryConfig) (cancelled : Bool) (r : QueryRequest)
    (fetch : CompiledQuery α → Option (Page β)) : Option (Except QueryFailure (Page β)) :=
  match CompiledQuery.compile m c r with
  | .error e => some (.error (.invalidFilter e))
  | .ok q => if cancelled then some (.error .cancelled) else (fetch q).map .ok

end EntityQuery
