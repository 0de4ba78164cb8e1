import EntityQuery.FieldMap.Basic
import EntityQuery.Sql.Name

/-!
# Building field maps

A `Draft` gathers registrations one after another. A field starts with the snake case of its name
for a column and with its name for a document path, open to every use; modifiers change the field
registered last, and nothing before the first one. `Draft.build` makes the map: of several
registrations of a name, whatever its case, the last one counts, in the place of the first.
-/

namespace EntityQuery

structure Draft (α : Type) where
  entity : String
  fields : List (Field α)
  relations : List (Relation α)
  defaultSortName : Option (String × SortDirection)

namespace Draft

variable {α : Type}

def start (entity : String) : Draft α := ⟨entity, [], [], none⟩

def field (d : Draft α) (name : String) (type : FieldType) (read : α → Value) : Draft α :=
  { d with fields := d.fields ++ [⟨name, Sql.snakeCase name, name, type, read, true, true, true⟩] }

/-- A list with its last entry changed. -/
def modifyLast (f : Field α → Field α) : List (Field α) → List (Field α)
  | [] => []
  | [x] => [f x]
  | x :: xs => x :: modifyLast f xs

def modify (d : Draft α) (f : Field α → Field α) : Draft α :=
  { d with fields := modifyLast f d.fields }

def column (d : Draft α) (name : String) : Draft α := d.modify ({ · with column := name })

def path (d : Draft α) (path : String) : Draft α := d.modify ({ · with path := path })

def notFilterable (d : Draft α) : Draft α := d.modify ({ · with canFilter := false })

def notSortable (d : Draft α) : Draft α := d.modify ({ · with canSort := false })

def notSelectable (d : Draft α) : Draft α := d.modify ({ · with canSelect := false })

def relation (d : Draft α) (r : Relation α) : Draft α := { d with relations := d.relations ++ [r] }

def defaultSort (d : Draft α) (name : String) (direction : SortDirection) : Draft α :=
  { d with defaultSortName := some (name, direction) }

def build (d : Draft α) : FieldMap α :=
  ⟨d.entity, .ofList d.fields, .ofList d.relations, d.defaultSortName⟩

end Draft

end EntityQuery
