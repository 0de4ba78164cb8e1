/-!
# Field types

The declared type of a field says which operators and literals it accepts.
-/

namespace EntityQuery

inductive FieldType where
  | string
  | number
  | boolean
  | dateTime
  | guid
  deriving DecidableEq, Repr

namespace FieldType

/-- The types whose values have an order that filters may ask for. -/
def isOrdered : FieldType → Bool
  | number | dateTime => true
  | string | boolean | guid => false

def name : FieldType → String
  | string => "string"
  | number => "number"
  | boolean => "boolean"
  | dateTime => "datetime"
  | guid => "guid"

end FieldType

end EntityQuery
