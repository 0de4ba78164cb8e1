import EntityQuery.Number.Basic

/-!
# JSON values

An object is the list of its members in the order in which they were written. `get?` looks a
member up, `insert` replaces the member of a present key where it stands and puts a new one at
the end, and `normalize` settles repeated keys inside a value that was read: the last one wins,
at the place of the first.
-/

namespace EntityQuery

inductive Json where
  | null
  | bool (b : Bool)
  | int (n : Int)
  | float (x : Number)
  | string (s : String)
  | array (items : List Json)
  | object (members : List (String × Json))
  deriving BEq, Repr, Inhabited

namespace Json

abbrev Members := List (String × Json)

/-- The value of the first member called `key`. -/
def Members.get? (ms : Members) (key : String) : Option Json :=
  (ms.find? fun m => m.1 = key).map Prod.snd

/-- The value at `key`, replaced where the key stands or put at the end. -/
def Members.insert (ms : Members) (key : String) (value : Json) : Members :=
  match ms with
  | [] => [(key, value)]
  | m :: ms => if m.1 = key then (key, value) :: ms else m :: Members.insert ms key value

def Members.ofList (ms : List (String × Json)) : Members :=
  ms.foldl (fun acc m => acc.insert m.1 m.2) []

/-- A member of an object; anything else has none. -/
def get? (key : String) : Json → Option Json
  | object ms => Members.get? ms key
  | _ => none

def string? : Json → Option String
  | string s => some s
  | _ => none

def array? : Json → Option (List Json)
  | array js => some js
  | _ => none

def bool? : Json → Option Bool
  | bool b => some b
  | _ => none

/-- Any number, as the nearest binary64 value. -/
def number? : Json → Option Number
  | int n => some (.ofInt n)
  | float x => some x
  | _ => none

mutual

/-- Every object inside with its repeated keys settled. -/
def normalize : Json → Json
  | array js => array (normalizeItems js)
  | object ms => object (Members.ofList (normalizeMembers ms))
  | j => j

def normalizeItems : List Json → List Json
  | [] => []
  | j :: js => j.normalize :: normalizeItems js

def normalizeMembers : List (String × Json) → List (String × Json)
  | [] => []
  | (k, j) :: ms => (k, j.normalize) :: normalizeMembers ms

end

/-! ## Members -/

@[simp] theorem Members.get?_nil (key : String) : Members.get? [] key = none := rfl

theorem Members.get?_cons (m : String × Json) (ms : Members) (key : String) :
    Members.get? (m :: ms) key = if m.1 = key then some m.2 else Members.get? ms key := by
  simp only [Members.get?, List.find?_cons]
  by_cases h : m.1 = key <;> simp [h]

theorem Members.get?_insert (ms : Members) (key k : String) (v : Json) :
    (ms.insert key v).get? k = if k = key then some v else ms.get? k := by
  induction ms with
  | nil =>
    simp only [Members.insert, Members.get?_cons, Members.get?_nil, eq_comm]
  | cons m ms ih =>
    simp only [Members.insert]
    by_cases h : m.1 = key
    · simp only [h, if_pos, Members.get?_cons]
      by_cases hk : k = key
      · simp [hk]
      · have : key ≠ k := fun e => hk e.symm
        simp [hk, this]
    · simp only [h, if_neg, not_false_eq_true, Members.get?_cons, ih]
      by_cases hm : m.1 = k
      · have : k ≠ key := fun e => h (hm.trans e)
        simp [hm, this]
      · simp [hm]

end Json

end EntityQuery
