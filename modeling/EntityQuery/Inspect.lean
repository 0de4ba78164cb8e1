import EntityQuery.Json.Writer
import EntityQuery.Query.Compile
import EntityQuery.Text.Escape

/-!
# Showing queries to developers

`CompiledQuery.inspect` and `FieldMap.inspect` write out all parts of a query or a field map on
one line: records as `Name { field: value }`, choices as `Name(value)`, texts escaped in double
quotes. Functions are left out, and fields stand by their names.
-/

namespace EntityQuery

namespace Inspect

def record (name : String) (fields : List (String × String)) : String :=
  name ++ " \x7b " ++ ", ".intercalate (fields.map fun f => f.1 ++ ": " ++ f.2) ++ " \x7d"

/-- A choice with its parts. -/
def variant (name : String) (parts : List String) : String :=
  name ++ "(" ++ ", ".intercalate parts ++ ")"

def list (items : List String) : String := "[" ++ ", ".intercalate items ++ "]"

def set (items : List String) : String := "\x7b" ++ ", ".intercalate items ++ "\x7d"

def option {α : Type} (f : α → String) : Option α → String
  | none => "None"
  | some a => variant "Some" [f a]

def bool (b : Bool) : String := if b then "true" else "false"

/-- Numbers stand in full from 10^-4 up to 10^16, else with an exponent. -/
def layout : Number.Layout := ⟨-4, 16, false, .up⟩

def number : Number → String
  | .finite s u => Number.finiteText layout s u
  | .infinite s => if s then "-inf" else "inf"
  | .nan => "NaN"

def value : Value → String
  | .null => "Null"
  | .string s => variant "String" [Text.escaped s]
  | .number x => variant "Number" [number x]
  | .boolean b => variant "Boolean" [bool b]
  | .dateTime i => variant "DateTime" [i.text]
  | .guid g => variant "Guid" [g.text]

mutual

def json : Json → String
  | .null => "Null"
  | .bool b => variant "Bool" [bool b]
  | .int n => variant "Number" [toString n]
  | .float x => variant "Number" [Json.floatText x]
  | .string s => variant "String" [Text.escaped s]
  | .array js => "Array " ++ list (jsonItems js)
  | .object ms => "Object " ++ set (jsonMembers ms)

def jsonItems : List Json → List String
  | [] => []
  | j :: js => json j :: jsonItems js

def jsonMembers : List (String × Json) → List String
  | [] => []
  | (k, j) :: ms => (Text.escaped k ++ ": " ++ json j) :: jsonMembers ms

end

def comparison : Comparison → String
  | .eq => "Eq"
  | .ne => "Ne"
  | .gt => "Gt"
  | .ge => "Ge"
  | .lt => "Lt"
  | .le => "Le"

def textTest : TextTest → String
  | .contains => "Contains"
  | .startsWith => "StartsWith"
  | .endsWith => "EndsWith"

def fieldType : FieldType → String
  | .string => "String"
  | .number => "Number"
  | .boolean => "Boolean"
  | .dateTime => "DateTime"
  | .guid => "Guid"

def direction : SortDirection → String
  | .asc => "Asc"
  | .desc => "Desc"

def relationKind : RelationKind → String
  | .hasMany => "HasMany"
  | .belongsTo => "BelongsTo"

variable {α : Type}

def fieldName (f : Field α) : String × String := ("field", Text.escaped f.name)

def predicate : Predicate α → String
  | .compare f op v =>
    record "Compare" [fieldName f, ("op", comparison op), ("value", value v)]
  | .text f test needle negated =>
    record "Like" [fieldName f, ("kind", textTest test), ("needle", Text.escaped needle),
      ("negated", bool negated)]
  | .isIn f vs negated =>
    record "InSet" [fieldName f, ("values", list (vs.map value)), ("negated", bool negated)]
  | .isNull f negated => record "IsNull" [fieldName f, ("negated", bool negated)]
  | .and l r => variant "And" [predicate l, predicate r]
  | .or l r => variant "Or" [predicate l, predicate r]
  | .not p => variant "Not" [predicate p]

def sortKey (k : SortKey α) : String :=
  record "SortKey" [fieldName k.field, ("direction", direction k.direction)]

def sortPlan (p : SortPlan α) : String :=
  record "SortPlan" [("keys", list (p.keys.map sortKey)), ("defaulted", bool p.defaulted)]

def projectionEntry (e : ProjectionEntry) : String :=
  record "ProjectionEntry" [("name", Text.escaped e.name),
    ("fields", list (e.fields.map Text.escaped)), ("whole", bool e.whole)]

def field (f : Field α) : String :=
  record "FieldDef" [("name", Text.escaped f.name), ("column", Text.escaped f.column),
    ("document_path", Text.escaped f.path), ("field_type", fieldType f.type),
    ("can_filter", bool f.canFilter), ("can_sort", bool f.canSort),
    ("can_select", bool f.canSelect)]

def relation (r : Relation α) : String :=
  record "IncludeDef" [("name", Text.escaped r.name), ("kind", relationKind r.kind),
    ("foreign_key", Text.escaped r.foreignKey)]

end Inspect

open Inspect

variable {α : Type}

def CompiledQuery.inspect (q : CompiledQuery α) : String :=
  record "CompiledQuery" [("entity", Text.escaped q.map.entity),
    ("filter", option (fun f => Text.escaped f.node.text) q.filter),
    ("predicate", option predicate q.predicate?),
    ("document_filter", variant "DocumentFilter" [json q.documentFilter.json]),
    ("sort", sortPlan q.sort),
    ("includes", record "IncludeSet" [("names", set (q.includes.names.map Text.escaped))]),
    ("page", record "PageRequest" [("page", toString q.page.page),
      ("page_size", toString q.page.pageSize)]),
    ("projection", option
      (fun p => record "ProjectionTree" [("entries", list (p.map projectionEntry))]) q.projection)]

def FieldMap.inspect (m : FieldMap α) : String :=
  record "FieldMap" [("entity", Text.escaped m.entity),
    ("fields", list (m.fields.entries.map field)),
    ("includes", list (m.relations.entries.map relation)),
    ("default_sort", option
      (fun d => "(" ++ Text.escaped d.1 ++ ", " ++ direction d.2 ++ ")") m.defaultSortName)]

end EntityQuery
