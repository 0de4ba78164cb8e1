import EntityQuery.Filter.Validate

/-!
# The catalogue of filters

`describeFields` lists the fields that filters may name, each with the operators it accepts. An
`InvalidFilter` is a filter error together with this catalogue and with up to three clauses that
work, on fields of different types.
-/

namespace EntityQuery

variable {α : Type}

structure FieldDescription where
  name : String
  type : FieldType
  operators : List String
  deriving DecidableEq, Repr

def describeFields (m : FieldMap α) : List FieldDescription :=
  (m.fields.entries.filter (·.canFilter)).map fun f => ⟨f.name, f.type, operatorsFor f.type⟩

/-- A clause on a field of a type. -/
def FieldDescription.example (d : FieldDescription) : String :=
  d.name ++ match d.type with
    | .string => " @contains 'value'"
    | .number => " >= 10"
    | .boolean => " == true"
    | .dateTime => " > 2024-01-01"
    | .guid => " == 3fa85f64-5717-4562-b3fc-2c963f66afa6"

/-- The first field of each type. -/
def firstOfEachType (seen : List FieldType) : List FieldDescription → List FieldDescription
  | [] => []
  | d :: ds =>
    if d.type ∈ seen then firstOfEachType seen ds else d :: firstOfEachType (d.type :: seen) ds

def exampleCount : Nat := 3

def filterExamples (m : FieldMap α) : List String :=
  ((firstOfEachType [] (describeFields m)).take exampleCount).map FieldDescription.example

def FieldDescription.line (d : FieldDescription) : String :=
  "\n  " ++ d.name ++ " (" ++ d.type.name ++ "): " ++ ", ".intercalate d.operators

/-- What a caller may filter on instead. -/
def catalogueText (m : FieldMap α) : String :=
  match describeFields m with
  | [] => "\n" ++ m.entity ++ " has no filterable fields."
  | ds =>
    "\nFilterable fields for " ++ m.entity ++ ":" ++ String.join (ds.map FieldDescription.line) ++
      "\nExamples:" ++ String.join ((filterExamples m).map ("\n  " ++ ·))

structure InvalidFilter where
  error : FilterError
  message : String
  deriving DecidableEq, Repr

def invalidFilter (m : FieldMap α) (e : FilterError) : InvalidFilter :=
  ⟨e, e.text ++ catalogueText m⟩

end EntityQuery
