import EntityQuery.Json.Fields
import EntityQuery.Number.Decimal
import EntityQuery.Text.Blank

/-!
# Settings

A `QueryConfig` holds the defaults and bounds of paging and the bounds on filters. In JSON every
setting may be left out. `QueryConfig.ofEnvironment` takes settings from named texts; one that is
not a number of its range keeps the default, and zero counts as one.
-/

namespace EntityQuery

structure PagingConfig where
  defaultPage : Nat := 1
  defaultPageSize : Nat := 10
  /-- No page is larger, whatever is asked for. -/
  maxPageSize : Nat := 100
  deriving DecidableEq, Repr

structure FilterLimits where
  maxDepth : Nat := 10
  maxNodes : Nat := 50
  /-- The greatest length of a filter text, in characters. -/
  maxLength : Nat := 4096
  deriving DecidableEq, Repr

structure QueryConfig where
  paging : PagingConfig := {}
  limits : FilterLimits := {}
  deriving DecidableEq, Repr

/-- Paging is counted in 32 bits. -/
def pageLimit : Nat := UInt32.size

/-- The bounds on filters have 64 bits. -/
def sizeLimit : Nat := UInt64.size

namespace QueryConfig

/-! ## JSON -/

/-- A setting: the default if it is missing. -/
def setting? {α : Type} (read : Json → Option α) (default : α) : Option Json → Option α
  | none => some default
  | some j => read j

def paging? (j : Json) : Option PagingConfig := do
  let d : PagingConfig := {}
  match ← (← j.fields?).collect? ["default_page", "default_page_size", "max_page_size"] with
  | [page, size, most] =>
    let count := setting? (Json.natBelow? pageLimit)
    pure ⟨← count d.defaultPage page, ← count d.defaultPageSize size, ← count d.maxPageSize most⟩
  | _ => none

def limits? (j : Json) : Option FilterLimits := do
  let d : FilterLimits := {}
  match ← (← j.fields?).collect? ["max_depth", "max_nodes", "max_length"] with
  | [depth, nodes, length] =>
    let count := setting? (Json.natBelow? sizeLimit)
    pure ⟨← count d.maxDepth depth, ← count d.maxNodes nodes, ← count d.maxLength length⟩
  | _ => none

def ofJson? (j : Json) : Option QueryConfig := do
  match ← (← j.fields?).collect? ["paging", "limits"] with
  | [paging, limits] => pure ⟨← setting? paging? {} paging, ← setting? limits? {} limits⟩
  | _ => none

def toJson (c : QueryConfig) : Json :=
  .object [
    ("paging", .object [
      ("default_page", .int c.paging.defaultPage),
      ("default_page_size", .int c.paging.defaultPageSize),
      ("max_page_size", .int c.paging.maxPageSize)]),
    ("limits", .object [
      ("max_depth", .int c.limits.maxDepth),
      ("max_nodes", .int c.limits.maxNodes),
      ("max_length", .int c.limits.maxLength)])]

/-! ## Environment -/

/-- A number from its digits behind an optional plus, blanks around it passed over. -/
def readCount? (limit : Nat) (raw : String) : Option Nat :=
  let cs := Text.trimChars raw.toList
  let ds := if cs.head? = some '+' then cs.tail else cs
  if ds ≠ [] ∧ ds.all Char.isDigit then
    let n := Decimal.digitsValue ds
    if n < limit then some n else none
  else none

/-- A setting from the environment, at least one. -/
def environmentCount (env : String → Option String) (limit : Nat) (name : String)
    (default : Nat) : Nat :=
  max (((env name).bind (readCount? limit)).getD default) 1

def ofEnvironment (env : String → Option String) : QueryConfig :=
  let d : QueryConfig := {}
  { paging :=
      { defaultPage := d.paging.defaultPage
        defaultPageSize := environmentCount env pageLimit "ASSET_QUERY_DEFAULT_PAGE_SIZE"
          d.paging.defaultPageSize
        maxPageSize := environmentCount env pageLimit "ASSET_QUERY_MAX_PAGE_SIZE"
          d.paging.maxPageSize }
    limits :=
      { maxDepth := environmentCount env sizeLimit "ASSET_QUERY_MAX_FILTER_DEPTH"
          d.limits.maxDepth
        maxNodes := environmentCount env sizeLimit "ASSET_QUERY_MAX_FILTER_NODES"
          d.limits.maxNodes
        maxLength := environmentCount env sizeLimit "ASSET_QUERY_MAX_FILTER_LENGTH"
          d.limits.maxLength } }

end QueryConfig

end EntityQuery
