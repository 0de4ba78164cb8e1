import EntityQuery.Query.Compile
import EntityQuery.Sql.Condition

/-!
# SQL statements

A compiled query becomes one statement for the page, one for the count of all matches, and one for
each included relation. The first two share the values of their placeholders. The statement of a
relation has a placeholder for the keys of the parents.
-/

namespace EntityQuery.Sql

variable {α : Type}

/-- Loads one relation for a page of parents. -/
structure RelationStatement where
  relation : String
  /-- The column of the parent whose values take the place of the placeholder. -/
  parentColumn : String
  sql : String
  deriving DecidableEq, Repr

structure Statements where
  page : String
  count : String
  parameters : List Json
  relations : List RelationStatement

/-- Stands for the keys of the parents. -/
def parentKeys : String := "$PARENT_IDS"

def columnList (columns : List String) : String := ", ".intercalate (columns.map quoteName)

def relationStatement (r : Relation α) : RelationStatement :=
  let (key, parentColumn) := match r.kind with
    | .hasMany => (r.foreignKey, "id")
    | .belongsTo => ("id", r.foreignKey)
  ⟨r.name, parentColumn,
    "SELECT " ++ columnList r.related.columns ++ "\nFROM " ++
      quoteName (tableName r.related.entity) ++ "\nWHERE " ++ quoteName key ++ " IN (" ++
      parentKeys ++ ")"⟩

/-- The WHERE clause on a line of its own, if there is a filter. -/
def whereClause (q : CompiledQuery α) : String :=
  match q.predicate? with
  | some p => "\nWHERE " ++ p.condition.text
  | none => ""

def orderClause (q : CompiledQuery α) : String :=
  match q.sort.sqlText with
  | "" => ""
  | s => "\nORDER BY " ++ s

def Statements.ofQuery (q : CompiledQuery α) : Statements :=
  let table := quoteName (tableName q.map.entity)
  { page :=
      "SELECT " ++ columnList (q.map.fields.entries.map (·.column)) ++ "\nFROM " ++ table ++
        whereClause q ++ orderClause q ++ "\nLIMIT " ++ toString q.page.limit ++ "\nOFFSET " ++
        toString q.page.skip
    count := "SELECT COUNT(*)\nFROM " ++ table ++ whereClause q
    parameters := (q.predicate?.map Predicate.parameters).getD []
    relations := (q.includes.resolve q.map).map relationStatement }

end EntityQuery.Sql
