import EntityQuery.Document.Path
import EntityQuery.Document.TextPattern

/-!
# Document filters

A document filter is itself a JSON object. Each member is a condition on the value at a path, or
joins filters under `$and`, `$or` or `$nor`; a document matches when all members hold. A condition
is an object of operators, all of which have to hold, or a value to be equal to. What is missing
is null, null equals only null, and values of different kinds are never in order.

`join` makes one filter of two and puts filters joined by the same operator into one list.
-/

namespace EntityQuery

/-- Null equals only null, and other values what they compare equal to. -/
def Value.equals : Value → Value → Bool
  | null, null => true
  | null, _ => false
  | _, null => false
  | a, b => a.compare b == some .eq

namespace Document

def conditionOperators : List String :=
  ["$eq", "$ne", "$gt", "$gte", "$lt", "$lte", "$in", "$nin", "$regex", "$not"]

/-- Is an object a condition of operators rather than a value? -/
def isOperators (ms : List (String × Json)) : Bool :=
  !ms.isEmpty && ms.all fun m => conditionOperators.contains m.1

/-- Do two values have an order that is accepted? -/
def ordered (actual : Value) (operand : Json) (accept : Ordering → Bool) : Bool :=
  (actual.compare (.ofDocument operand)).any accept

/-- Does a value equal one of the items of an array? -/
def equalsSome (actual : Value) (operand : Json) : Bool :=
  (operand.array?.getD []).any fun j => actual.equals (.ofDocument j)

def hasPattern (actual : Value) (pattern : Json) : Bool :=
  match actual, pattern with
  | .string s, .string p => patternFound p s
  | _, _ => false

mutual

/-- Does a condition hold of a value? -/
def conditionHolds (actual : Value) : Json → Bool
  | .object ms =>
    if isOperators ms then operatorsHold actual ms else actual.equals (.ofDocument (.object ms))
  | j => actual.equals (.ofDocument j)

def operatorsHold (actual : Value) : List (String × Json) → Bool
  | [] => true
  | (op, operand) :: ms =>
    (match op with
      | "$eq" => actual.equals (.ofDocument operand)
      | "$ne" => !actual.equals (.ofDocument operand)
      | "$gt" => ordered actual operand (· == .gt)
      | "$gte" => ordered actual operand (· != .lt)
      | "$lt" => ordered actual operand (· == .lt)
      | "$lte" => ordered actual operand (· != .gt)
      | "$in" => equalsSome actual operand
      | "$nin" => !equalsSome actual operand
      | "$regex" => hasPattern actual operand
      | "$not" => !conditionHolds actual operand
      | _ => false) && operatorsHold actual ms

end

mutual

/-- Does a document match a filter? What is no object matches nothing. -/
def filterMatches (doc : Json) : Json → Bool
  | .object ms => clausesMatch doc ms
  | _ => false

def clausesMatch (doc : Json) : List (String × Json) → Bool
  | [] => true
  | (key, condition) :: ms =>
    (match key with
      | "$and" => allMatch doc condition
      | "$or" => someMatch doc condition
      | "$nor" => !someMatch doc condition
      | path => conditionHolds (valueAt doc path) condition) && clausesMatch doc ms

def allMatch (doc : Json) : Json → Bool
  | .array fs => allItemsMatch doc fs
  | _ => true

def someMatch (doc : Json) : Json → Bool
  | .array fs => someItemMatches doc fs
  | _ => false

def allItemsMatch (doc : Json) : List Json → Bool
  | [] => true
  | f :: fs => filterMatches doc f && allItemsMatch doc fs

def someItemMatches (doc : Json) : List Json → Bool
  | [] => false
  | f :: fs => filterMatches doc f || someItemMatches doc fs

end

end Document

/-- A filter on stored documents. -/
structure DocumentFilter where
  json : Json

namespace DocumentFilter

/-- The filter without conditions. -/
def matchAll : DocumentFilter := ⟨.object []⟩

def isMatchAll (f : DocumentFilter) : Bool :=
  match f.json with
  | .object [] => true
  | _ => false

/-- A condition on the value at a path. -/
def field (path : String) (condition : Json) : DocumentFilter := ⟨.object [(path, condition)]⟩

/-- The filters that stand for one side of a join: the parts of a join by the same operator, or the
side itself. -/
def parts (op : String) (j : Json) : List Json :=
  match j with
  | .object [(key, inner)] => if key = op then inner.array?.getD [] else [j]
  | _ => [j]

def join (op : String) (left right : DocumentFilter) : DocumentFilter :=
  ⟨.object [(op, .array (parts op left.json ++ parts op right.json))]⟩

def negate (f : DocumentFilter) : DocumentFilter := ⟨.object [("$nor", .array [f.json])]⟩

def selects (f : DocumentFilter) (doc : Json) : Bool := Document.filterMatches doc f.json

end DocumentFilter

end EntityQuery
