import EntityQuery.Document.Path
import EntityQuery.FieldMap.Basic
import EntityQuery.Query.StableSort
import EntityQuery.Sql.Name

/-!
# Sorting

A `SortPlan` is a list of keys, each a field and a direction; later keys settle the ties of earlier
ones. Its text form is a list of names between commas, with a minus for descending. Names that are
unknown or closed to sorting are dropped, and so are repetitions; when nothing is left the default
of the field map takes the place. Nulls come first when ascending and last when descending, in
memory, in stored documents and in SQL.
-/

namespace EntityQuery

structure SortKey (α : Type) where
  field : Field α
  direction : SortDirection

structure SortPlan (α : Type) where
  keys : List (SortKey α)
  /-- Were there no usable keys, so that the default was taken? -/
  defaulted : Bool

namespace SortPlan

variable {α : Type}

/-- The name and the direction of a part of the text. -/
def readKey (part : String) : String × SortDirection :=
  match part.toList with
  | '-' :: cs => (String.ofList (Text.trimChars cs), .desc)
  | '+' :: cs => (String.ofList (Text.trimChars cs), .asc)
  | _ => (part, .asc)

def key? (m : FieldMap α) (part : String) : Option (SortKey α) :=
  let (name, direction) := readKey part
  ((m.get? name).filter (·.canSort)).map fun f => ⟨f, direction⟩

/-- All usable keys of a text, repetitions included. -/
def usableKeys (m : FieldMap α) (raw : String) : List (SortKey α) :=
  (Text.commaParts raw).filterMap (key? m)

/-- The keys whose field has not come before. -/
def withoutRepeats (seen : List String) : List (SortKey α) → List (SortKey α)
  | [] => []
  | k :: ks =>
    if k.field.key ∈ seen then withoutRepeats seen ks
    else k :: withoutRepeats (k.field.key :: seen) ks

def parse (m : FieldMap α) (raw : Option String) : SortPlan α :=
  match withoutRepeats [] (usableKeys m (raw.getD "")) with
  | [] =>
    match m.defaultSort? with
    | some (f, direction) => ⟨[⟨f, direction⟩], true⟩
    | none => ⟨[], false⟩
  | keys => ⟨keys, false⟩

/-- The order by a list of keys, given the value that a key reads. -/
def compareBy {β : Type} (read : Field α → β → Value) (a b : β) : List (SortKey α) → Ordering
  | [] => .eq
  | k :: ks =>
    (k.direction.apply ((read k.field a).sortCompare (read k.field b))).then
      (compareBy read a b ks)

def compare (p : SortPlan α) (a b : α) : Ordering := compareBy Field.read a b p.keys

/-- The order of stored documents. -/
def compareDocuments (p : SortPlan α) (a b : Json) : Ordering :=
  compareBy (fun f doc => Document.valueAt doc f.path) a b p.keys

def apply (p : SortPlan α) (items : List α) : List α :=
  stableSort (fun a b => p.compare a b == .lt) items

def applyDocuments (p : SortPlan α) (docs : List Json) : List Json :=
  stableSort (fun a b => p.compareDocuments a b == .lt) docs

/-! ## Forms for stores -/

def nullsText : SortDirection → String
  | .asc => "NULLS FIRST"
  | .desc => "NULLS LAST"

def keyText (k : SortKey α) : String :=
  Sql.quoteName k.field.column ++ " " ++ k.direction.sqlWord ++ " " ++ nullsText k.direction

/-- What follows ORDER BY. -/
def sqlText (p : SortPlan α) : String := ", ".intercalate (p.keys.map keyText)

/-- The sort of a document store: paths with signs, the first one counting most. -/
def documentSpec (p : SortPlan α) : Json.Members :=
  .ofList (p.keys.map fun k => (k.field.path, Json.int k.direction.sign))

end SortPlan

end EntityQuery
