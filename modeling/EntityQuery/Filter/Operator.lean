import EntityQuery.FieldType

/-!
# Operators

A filter compares a field with one literal (`Comparison`), calls a test on a field with any number
of literals (`CallOp`), or joins two filters (`BinaryOp`). Each operator has a symbol in the filter
language and a class that says which field types it fits. `comparisonOperators` lists all
operators on fields in the order in which they are advertised.
-/

namespace EntityQuery

/-- Which field types an operator may be applied to. -/
inductive OperatorClass where
  | logical
  | stringOnly
  | ordering
  | any
  deriving DecidableEq, Repr

def OperatorClass.permits : OperatorClass → FieldType → Bool
  | logical, _ => true
  | stringOnly, t => t == .string
  | ordering, t => t.isOrdered
  | any, _ => true

inductive Comparison where
  | eq
  | ne
  | gt
  | ge
  | lt
  | le
  deriving DecidableEq, Repr

namespace Comparison

def symbol : Comparison → String
  | eq => "=="
  | ne => "!="
  | gt => ">"
  | ge => ">="
  | lt => "<"
  | le => "<="

def operatorClass : Comparison → OperatorClass
  | eq | ne => .any
  | gt | ge | lt | le => .ordering

end Comparison

inductive BinaryOp where
  | and
  | or
  | compare (c : Comparison)
  deriving DecidableEq, Repr

def BinaryOp.symbol : BinaryOp → String
  | and => "and"
  | or => "or"
  | compare c => c.symbol

/-- Tests that are called on a field: `field symbol (arguments)`. -/
inductive CallOp where
  | contains
  | notContains
  | startsWith
  | endsWith
  | isIn
  | notIn
  | between
  | isNull
  | isNotNull
  deriving DecidableEq, Repr

namespace CallOp

def symbol : CallOp → String
  | contains => "@contains"
  | notContains => "not @contains"
  | startsWith => "@startswith"
  | endsWith => "@endswith"
  | isIn => "in"
  | notIn => "not in"
  | between => "between"
  | isNull => "is null"
  | isNotNull => "is not null"

def operatorClass : CallOp → OperatorClass
  | contains | notContains | startsWith | endsWith => .stringOnly
  | between => .ordering
  | isIn | notIn | isNull | isNotNull => .any

/-- The least number of arguments, and the greatest if there is one. -/
def arity : CallOp → Nat × Option Nat
  | contains | notContains | startsWith | endsWith => (1, some 1)
  | isIn | notIn => (1, none)
  | between => (2, some 2)
  | isNull | isNotNull => (0, some 0)

def admits (op : CallOp) (count : Nat) : Bool :=
  op.arity.1 ≤ count && op.arity.2.all (count ≤ ·)

end CallOp

/-- Every operator on a field with its class, in the order of the catalogue. -/
def comparisonOperators : List (String × OperatorClass) :=
  [("==", .any), ("!=", .any), (">", .ordering), (">=", .ordering), ("<", .ordering),
   ("<=", .ordering), ("between", .ordering), ("in", .any), ("not in", .any), ("is null", .any),
   ("is not null", .any), ("@contains", .stringOnly), ("not @contains", .stringOnly),
   ("@startswith", .stringOnly), ("@endswith", .stringOnly)]

/-- The symbols that a field of a type accepts. -/
def operatorsFor (t : FieldType) : List String :=
  (comparisonOperators.filter fun o => o.2.permits t).map Prod.fst

end EntityQuery
