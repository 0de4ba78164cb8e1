import EntityQuery.Config
import EntityQuery.Json.Basic

/-!
# Pages

A `PageRequest` is a page number, counted from one, and a page size. `normalize` makes one of what
was asked for: numbers that are missing or not positive give way to the defaults, and sizes are
cut to the greatest allowed. A `Page` is a page of items with the count of all items; the number
of pages and whether there are neighbours follow from these.
-/

namespace EntityQuery

structure PageRequest where
  page : Nat
  pageSize : Nat
  deriving DecidableEq, Repr

namespace PageRequest

/-- A positive number cut to 32 bits, or the default, at least one. -/
def countOr (default : Nat) : Option Int → Nat
  | some (.ofNat (n + 1)) => min (n + 1) (pageLimit - 1)
  | _ => max default 1

def normalize (c : PagingConfig) (page pageSize : Option Int) : PageRequest :=
  ⟨countOr c.defaultPage page, min (countOr c.defaultPageSize pageSize) (max c.maxPageSize 1)⟩

/-- What is asked for when nothing is. -/
def default : PageRequest := normalize {} none none

/-- How many items come before the page. -/
def skip (r : PageRequest) : Nat := (r.page - 1) * r.pageSize

def limit (r : PageRequest) : Nat := r.pageSize

/-- The items of the page. -/
def slice {α : Type} (r : PageRequest) (items : List α) : List α := (items.drop r.skip).take r.limit

end PageRequest

structure Page (α : Type) where
  items : List α
  page : Nat
  pageSize : Nat
  totalCount : Nat
  deriving Repr

namespace Page

variable {α β : Type}

def ofItems (items : List α) (r : PageRequest) (totalCount : Nat) : Page α :=
  ⟨items, r.page, r.pageSize, totalCount⟩

def totalPages (p : Page α) : Nat :=
  if p.pageSize = 0 then 0 else (p.totalCount + p.pageSize - 1) / p.pageSize

def hasNext (p : Page α) : Bool := p.page < p.totalPages

def hasPrevious (p : Page α) : Bool := p.page > 1

/-- The page with its items changed. -/
def map (f : α → β) (p : Page α) : Page β := ⟨p.items.map f, p.page, p.pageSize, p.totalCount⟩

def toJson (item : α → Json) (p : Page α) : Json :=
  .object [("items", .array (p.items.map item)), ("page", .int p.page),
    ("pageSize", .int p.pageSize), ("totalCount", .int p.totalCount),
    ("totalPages", .int p.totalPages), ("hasNext", .bool p.hasNext),
    ("hasPrevious", .bool p.hasPrevious)]

end Page

end EntityQuery
