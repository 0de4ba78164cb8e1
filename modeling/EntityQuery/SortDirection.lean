/-!
# Sort directions
-/

namespace EntityQuery

inductive SortDirection where
  | asc
  | desc
  deriving DecidableEq, Repr

namespace SortDirection

def sqlWord : SortDirection → String
  | asc => "ASC"
  | desc => "DESC"

/-- The sign of a direction in a document sort. -/
def sign : SortDirection → Int
  | asc => 1
  | desc => -1

/-- An order, reversed if the direction is descending. -/
def apply : SortDirection → Ordering → Ordering
  | asc, o => o
  | desc, o => o.swap

end SortDirection

end EntityQuery
