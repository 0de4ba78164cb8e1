import EntityQuery.Filter.Operator
import EntityQuery.Sql.Like
import EntityQuery.Sql.Name

/-!
# SQL conditions

A `Condition` is the condition of a WHERE clause, with numbered placeholders in the place of
values. A test that can be neither true nor false over a null stands inside COALESCE with its
verdict on null, so that every condition is true or false. `Predicate.condition` is the condition
of a predicate and `Predicate.parameters` lists the values of its placeholders in order.
-/

namespace EntityQuery

namespace Sql

/-- A test of a column against placeholders, which are numbered from one. -/
inductive Test where
  | compare (column : String) (op : Comparison) (placeholder : Nat)
  | like (column : String) (negated : Bool) (placeholder : Nat)
  | isIn (column : String) (negated : Bool) (placeholders : List Nat)
  deriving DecidableEq, Repr

inductive Condition where
  /-- A test with its verdict on null. -/
  | coalesce (test : Test) (onNull : Bool)
  | isNull (column : String) (negated : Bool)
  | and (left right : Condition)
  | or (left right : Condition)
  | not (inner : Condition)
  deriving DecidableEq, Repr

def comparisonSymbol : Comparison → String
  | .eq => "="
  | .ne => "<>"
  | .gt => ">"
  | .ge => ">="
  | .lt => "<"
  | .le => "<="

def placeholderText (n : Nat) : String := "$" ++ toString n

def Test.text : Test → String
  | compare column op n =>
    quoteName column ++ " " ++ comparisonSymbol op ++ " " ++ placeholderText n
  | like column negated n =>
    quoteName column ++ (if negated then " NOT LIKE " else " LIKE ") ++ placeholderText n ++
      " ESCAPE '\\'"
  | isIn column negated ns =>
    quoteName column ++ (if negated then " NOT IN (" else " IN (") ++
      ", ".intercalate (ns.map placeholderText) ++ ")"

def boolText (b : Bool) : String := if b then "TRUE" else "FALSE"

/-- Conjunctions and disjunctions stand in parentheses, and so does what a NOT is put to. -/
def Condition.text : Condition → String
  | coalesce test onNull => "COALESCE(" ++ test.text ++ ", " ++ boolText onNull ++ ")"
  | isNull column negated => quoteName column ++ (if negated then " IS NOT NULL" else " IS NULL")
  | and l r => "(" ++ l.text ++ " AND " ++ r.text ++ ")"
  | or l r => "(" ++ l.text ++ " OR " ++ r.text ++ ")"
  | not c =>
    let inner := c.text
    if inner.toList.head? = some '(' then "NOT " ++ inner else "NOT (" ++ inner ++ ")"

end Sql

namespace Predicate

variable {α : Type}

/-- The values of the placeholders, in order. -/
def parameters : Predicate α → List Json
  | compare _ _ v => [v.toJson]
  | text _ test needle _ => [.string (Sql.likePattern test needle)]
  | isIn _ vs _ => vs.map Value.toJson
  | isNull _ _ => []
  | and l r | or l r => l.parameters ++ r.parameters
  | not p => p.parameters

/-- The condition after `before` placeholders, and the count of placeholders after it. -/
def conditionAfter (before : Nat) : Predicate α → Sql.Condition × Nat
  | compare f op _ => (.coalesce (.compare f.column op (before + 1)) op.onNull, before + 1)
  | text f _ _ negated => (.coalesce (.like f.column negated (before + 1)) negated, before + 1)
  | isIn f vs negated =>
    (.coalesce (.isIn f.column negated (List.range' (before + 1) vs.length)) negated,
      before + vs.length)
  | isNull f negated => (.isNull f.column negated, before)
  | and l r =>
    let (c, n) := l.conditionAfter before
    let (d, n) := r.conditionAfter n
    (.and c d, n)
  | or l r =>
    let (c, n) := l.conditionAfter before
    let (d, n) := r.conditionAfter n
    (.or c d, n)
  | not p =>
    let (c, n) := p.conditionAfter before
    (.not c, n)

def condition (p : Predicate α) : Sql.Condition := (p.conditionAfter 0).1

end Predicate

end EntityQuery
