import EntityQuery.FieldType
import EntityQuery.Registry
import EntityQuery.SortDirection
import EntityQuery.Text.Case
import EntityQuery.Value

/-!
# Field maps

A `FieldMap` lists all that a query may name of one kind of entity: the fields, each with its
column, its place in documents and the function that reads it, and the relations to other
entities. Names are looked up by their lower case. A field may be closed to filters, to sorts or
to projections. `toDocument` stores an entity under the document paths of its fields.
-/

namespace EntityQuery

structure Field (α : Type) where
  name : String
  column : String
  path : String
  type : FieldType
  read : α → Value
  canFilter : Bool
  canSort : Bool
  canSelect : Bool

/-- The form of a name under which it is looked up. -/
def Field.key {α : Type} (f : Field α) : String := Text.lower f.name

/-- How a relation hangs off its parent. -/
inductive RelationKind where
  /-- The related table has a key of the parent. -/
  | hasMany
  /-- The parent has a key of the related table. -/
  | belongsTo
  deriving DecidableEq, Repr

/-- The entity at the other side of a relation, and its columns. -/
structure RelatedEntity where
  entity : String
  columns : List String
  deriving DecidableEq, Repr

structure Relation (α : Type) where
  name : String
  kind : RelationKind
  /-- A column of the related table, or of the parent if it belongs to the related one. -/
  foreignKey : String
  related : RelatedEntity
  /-- The related entities in JSON, with the fields that are asked for; none means all. -/
  project : α → List String → Json

def Relation.key {α : Type} (r : Relation α) : String := Text.lower r.name

/-- The fields of one kind of entity. -/
abbrev FieldTable (α : Type) := Registry (Field α) Field.key

structure FieldMap (α : Type) where
  entity : String
  fields : FieldTable α
  relations : Registry (Relation α) Relation.key
  /-- What to sort by when a request names no usable key. -/
  defaultSortName : Option (String × SortDirection)

namespace FieldTable

variable {α : Type}

def get? (t : FieldTable α) (name : String) : Option (Field α) := t.find? (Text.lower name)

def selectable? (t : FieldTable α) (name : String) : Option (Field α) :=
  (t.get? name).filter (·.canSelect)

/-- An entity as JSON: the selectable ones of the named fields, or of all if none is named. -/
def select (t : FieldTable α) (entity : α) (names : List String) : Json :=
  let fields :=
    if names = [] then t.entries.filter (·.canSelect) else names.filterMap t.selectable?
  .object (Json.Members.ofList (fields.map fun f => (f.name, (f.read entity).toJson)))

end FieldTable

namespace FieldMap

variable {α : Type}

def get? (m : FieldMap α) (name : String) : Option (Field α) := FieldTable.get? m.fields name

def canFilter (m : FieldMap α) (name : String) : Bool := (m.get? name).any (·.canFilter)

def canSort (m : FieldMap α) (name : String) : Bool := (m.get? name).any (·.canSort)

def canSelect (m : FieldMap α) (name : String) : Bool := (m.get? name).any (·.canSelect)

def relation? (m : FieldMap α) (name : String) : Option (Relation α) :=
  m.relations.find? (Text.lower name)

/-- The field and direction to sort by without usable keys. -/
def defaultSort? (m : FieldMap α) : Option (Field α × SortDirection) :=
  match m.defaultSortName with
  | none => none
  | some (name, direction) => (m.get? name).map fun f => (f, direction)

/-- An entity as a stored document. -/
def toDocument (m : FieldMap α) (entity : α) : Json :=
  .object (Json.Members.ofList (m.fields.entries.map fun f => (f.path, (f.read entity).toDocument)))

end FieldMap

end EntityQuery
