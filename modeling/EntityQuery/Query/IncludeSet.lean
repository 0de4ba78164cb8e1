import EntityQuery.FieldMap.Basic
import EntityQuery.Text.Blank

/-!
# Included relations

The relations that a request asks for, as a set of lower-case names in ascending order. Names that
the field map does not know are ignored.
-/

namespace EntityQuery

/-- Names in strictly ascending order. -/
structure IncludeSet where
  names : List String
  deriving DecidableEq, Repr

namespace IncludeSet

variable {α : Type}

/-- A name put in its place, unless it is there. -/
def insertName (name : String) : List String → List String
  | [] => [name]
  | n :: ns =>
    match Value.compareText name n with
    | .lt => name :: n :: ns
    | .eq => n :: ns
    | .gt => n :: insertName name ns

/-- The form in which a known relation is kept. -/
def knownName? (m : FieldMap α) (part : String) : Option String :=
  (m.relation? part).map fun _ => Text.lower part

def parse (m : FieldMap α) (raw : Option String) : IncludeSet :=
  let known := (Text.commaParts (raw.getD "")).filterMap (knownName? m)
  ⟨known.foldl (fun ns n => insertName n ns) []⟩

def contains (s : IncludeSet) (name : String) : Bool := s.names.contains (Text.lower name)

def isEmpty (s : IncludeSet) : Bool := s.names.isEmpty

/-- The relations of the set, in ascending order of their names. -/
def resolve (s : IncludeSet) (m : FieldMap α) : List (Relation α) :=
  s.names.filterMap m.relation?

end IncludeSet

end EntityQuery
