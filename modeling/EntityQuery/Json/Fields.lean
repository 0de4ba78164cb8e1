import EntityQuery.Json.Basic

/-!
# Records in JSON

A record stands in JSON as an object whose members are its fields, or as an array of its fields in
order. Members that are no field are passed over; a field given twice and an array with too many
items are refused. A unit variant of a choice stands as its name, or as an object that maps the
name to nothing.
-/

namespace EntityQuery.Json

inductive Fields (α : Type) where
  | named (members : List (String × α))
  | placed (items : List α)

namespace Fields

variable {α : Type}

/-- The value of a member that may not be given twice. -/
def unique? (members : List (String × α)) (name : String) : Option (Option α) :=
  match members.filter (·.1 = name) with
  | [] => some none
  | [m] => some (some m.2)
  | _ => none

/-- One entry for each name, `none` where the field is missing. -/
def collect? (names : List String) : Fields α → Option (List (Option α))
  | named ms => names.mapM (unique? ms)
  | placed xs =>
    if xs.length ≤ names.length then
      some (xs.map some ++ List.replicate (names.length - xs.length) none)
    else none

/-- The fields of a record none of which is missing. -/
def complete? (names : List String) (fs : Fields α) : Option (List α) :=
  (fs.collect? names).bind fun xs => xs.mapM id

end Fields

def fields? : Json → Option (Fields Json)
  | object ms => some (.named ms)
  | array js => some (.placed js)
  | _ => none

/-- The name of a unit variant. -/
def variant? : Json → Option String
  | string s => some s
  | object [(s, null)] | object [(s, object [])] => some s
  | _ => none

/-- A whole number from zero up to `limit`, exclusive. -/
def natBelow? (limit : Nat) : Json → Option Nat
  | int (.ofNat n) => if n < limit then some n else none
  | _ => none

/-- A whole number of 64 bits with sign. -/
def int64? : Json → Option Int
  | int n => if Int64.minValue.toInt ≤ n ∧ n ≤ Int64.maxValue.toInt then some n else none
  | _ => none

/-- Nothing for a null, else what `read` finds. -/
def nullable? {α : Type} (read : Json → Option α) : Json → Option (Option α)
  | null => some none
  | j => (read j).map some

end EntityQuery.Json
