import EntityQuery.FieldType
import EntityQuery.Proofs.RoundTrip.Value
import EntityQuery.Proofs.Sql.Expression
import EntityQuery.Proofs.Sql.Like

/-!
# What SQL expressions mean

An expression is true, false or unknown of a row. A comparison with null is unknown, and AND, OR
and NOT go by what is known. A placeholder stands for the value that its parameter encodes at the
type of the column that it is compared with. What a database would refuse, such as a column that is
not there or a value of another type, has no truth (`Expr.eval?`).
-/

namespace EntityQuery.Sql

inductive Truth where
  | yes
  | no
  | unknown
  deriving DecidableEq, Repr

namespace Truth

def ofBool (b : Bool) : Truth := if b then yes else no

def not : Truth → Truth
  | yes => no
  | no => yes
  | unknown => unknown

def and : Truth → Truth → Truth
  | no, _ => no
  | _, no => no
  | yes, yes => yes
  | _, _ => unknown

def or : Truth → Truth → Truth
  | yes, _ => yes
  | _, yes => yes
  | no, no => no
  | _, _ => unknown

/-- The first that is known. -/
def coalesce : Truth → Truth → Truth
  | unknown, t => t
  | t, _ => t

@[simp] theorem not_ofBool (b : Bool) : (ofBool b).not = ofBool (!b) := by cases b <;> rfl

@[simp] theorem and_ofBool (a b : Bool) : (ofBool a).and (ofBool b) = ofBool (a && b) := by
  cases a <;> cases b <;> rfl

@[simp] theorem or_ofBool (a b : Bool) : (ofBool a).or (ofBool b) = ofBool (a || b) := by
  cases a <;> cases b <;> rfl

@[simp] theorem coalesce_ofBool (b : Bool) (t : Truth) : (ofBool b).coalesce t = ofBool b := by
  cases b <;> rfl

end Truth

/-- The columns of a row, each with its type and its value. -/
abbrev Row := String → Option (FieldType × Value)

/-- The value that a parameter encodes at a type. -/
def decode? : FieldType → Json → Option Value
  | _, .null => some .null
  | .string, .string s => some (.string s)
  | .number, .int n => some (.number (.ofInt n))
  | .number, .float x => some (.number x)
  | .boolean, .bool b => some (.boolean b)
  | .dateTime, .string s => (Instant.readOffset? s).map .dateTime
  | .guid, .string s => (Guid.read? s).map .guid
  | _, _ => none

theorem decode?_int (n : Int) : decode? .number (.int n) = some (.number (.ofInt n)) := rfl

theorem decode?_float (x : Number) : decode? .number (.float x) = some (.number x) := rfl

theorem decode?_dateTime (s : String) :
    decode? .dateTime (.string s) = (Instant.readOffset? s).map .dateTime := rfl

theorem decode?_guid (s : String) : decode? .guid (.string s) = (Guid.read? s).map .guid := rfl

/-- The value of a placeholder; the first one has number one. -/
def argument? (parameters : List Json) (t : FieldType) : Nat → Option Value
  | 0 => none
  | n + 1 => parameters[n]?.bind (decode? t)

/-- Does a comparison hold of values in this order? -/
def accepts : Comparison → Ordering → Bool
  | .eq, o => o.isEq
  | .ne, o => o.isNe
  | .gt, o => o.isGT
  | .ge, o => o.isGE
  | .lt, o => o.isLT
  | .le, o => o.isLE

def compareValues? (op : Comparison) (a v : Value) : Option Truth :=
  if a.isNull || v.isNull then some .unknown
  else (a.compare v).map fun o => .ofBool (accepts op o)

/-- Is a text like a pattern? -/
def likeValues? (escape : Char) : Value → Value → Option Truth
  | .string text, .string pattern => (like? escape pattern text).map .ofBool
  | .null, .string _ => some .unknown
  | .string _, .null => some .unknown
  | .null, .null => some .unknown
  | _, _ => none

/-- Is a value equal to one of some placeholders? -/
def memberOf? (parameters : List Json) (t : FieldType) (a : Value) : List Nat → Option Truth
  | [] => some .no
  | n :: ns => do
    let v ← argument? parameters t n
    let first ← compareValues? .eq a v
    let rest ← memberOf? parameters t a ns
    pure (first.or rest)

def negateIf (negated : Bool) (t : Truth) : Truth := if negated then t.not else t

/-- The truth of an expression over a row and the values of the placeholders. -/
def Expr.eval? (row : Row) (parameters : List Json) : Expr → Option Truth
  | compare column op n => do
    let (t, a) ← row column
    let v ← argument? parameters t n
    compareValues? op a v
  | like column negated n escape => do
    let (t, a) ← row column
    let pattern ← argument? parameters t n
    if t = .string then (likeValues? escape a pattern).map (negateIf negated) else none
  | isIn column negated ns => do
    let (t, a) ← row column
    (memberOf? parameters t a ns).map (negateIf negated)
  | isNull column negated => (row column).map fun c => .ofBool (c.2.isNull != negated)
  | truth b => some (.ofBool b)
  | coalesce a b => do
    let s ← a.eval? row parameters
    let t ← b.eval? row parameters
    pure (s.coalesce t)
  | not a => do
    let t ← a.eval? row parameters
    pure t.not
  | and a b => do
    let s ← a.eval? row parameters
    let t ← b.eval? row parameters
    pure (s.and t)
  | or a b => do
    let s ← a.eval? row parameters
    let t ← b.eval? row parameters
    pure (s.or t)

/-! ## Tests of a column with a known value -/

namespace Expr

variable {row : Row} {parameters : List Json} {column : String} {t : FieldType} {a v : Value}
  {n : Nat}

theorem eval?_compare_of_row (hrow : row column = some (t, a))
    (hv : argument? parameters t n = some v) (op : Comparison) :
    (compare column op n).eval? row parameters = compareValues? op a v := by
  simp only [eval?, hrow, Option.bind_eq_bind, Option.bind_some, hv]

theorem eval?_like_of_row (hrow : row column = some (.string, a))
    (hv : argument? parameters .string n = some v) (negated : Bool) (escape : Char) :
    (like column negated n escape).eval? row parameters =
      (likeValues? escape a v).map (negateIf negated) := by
  simp only [eval?, hrow, Option.bind_eq_bind, Option.bind_some, hv, if_true]

theorem eval?_isIn_of_row (hrow : row column = some (t, a)) (negated : Bool) (ns : List Nat) :
    (isIn column negated ns).eval? row parameters =
      (memberOf? parameters t a ns).map (negateIf negated) := by
  simp only [eval?, hrow, Option.bind_eq_bind, Option.bind_some]

/-- The verdict behind a test counts only if the test is unknown. -/
theorem eval?_coalesce {e : Expr} {s : Truth} (h : e.eval? row parameters = some s) (b : Bool) :
    (coalesce e (.truth b)).eval? row parameters = some (s.coalesce (.ofBool b)) := by
  rw [eval?, h]
  rfl

end Expr

@[simp] theorem negateIf_ofBool (negated b : Bool) :
    negateIf negated (.ofBool b) = .ofBool (b != negated) := by
  cases negated <;> cases b <;> rfl

@[simp] theorem negateIf_unknown (negated : Bool) : negateIf negated .unknown = .unknown := by
  cases negated <;> rfl

end EntityQuery.Sql
