import EntityQuery.Filter.Error
import EntityQuery.Filter.Resolve
import EntityQuery.Predicate.Basic

/-!
# From filters to predicates

`Node.toPredicate` binds a tree to a field map. Groups disappear, and a range becomes two
comparisons. The binding looks only at what it needs; whether a field may be filtered by an operator
is for validation to say.
-/

namespace EntityQuery

variable {α : Type}

namespace Node

/-- The field that a node names. -/
def boundField (m : FieldMap α) : Node → Except BindError (Field α)
  | field name =>
    match m.get? name with
    | some f => .ok f
    | none => .error (.unknownField name)
  | n => .error (.notField n.text)

/-- The value of a literal node at the type of a field. -/
def boundValue (f : Field α) : Node → Except BindError Value
  | literal l =>
    match l.resolve f.type with
    | some v => .ok v
    | none => .error (.literalMismatch f.name l.text f.type)
  | n => .error (.notLiteral n.text)

def boundValues (f : Field α) : List Node → Except BindError (List Value)
  | [] => .ok []
  | n :: ns => do
    let v ← n.boundValue f
    let vs ← boundValues f ns
    pure (v :: vs)

def textPredicate (f : Field α) (op : CallOp) (test : TextTest) (negated : Bool) :
    List Value → Except BindError (Predicate α)
  | [.string needle] => .ok (.text f test needle negated)
  | _ => .error (.textArgument op none)

def callPredicate (f : Field α) (op : CallOp) (values : List Value) :
    Except BindError (Predicate α) :=
  match op with
  | .contains => textPredicate f op .contains false values
  | .notContains => textPredicate f op .contains true values
  | .startsWith => textPredicate f op .startsWith false values
  | .endsWith => textPredicate f op .endsWith false values
  | .isIn => .ok (.isIn f values false)
  | .notIn => .ok (.isIn f values true)
  | .between =>
    match values with
    | [low, high] => .ok (.and (.compare f .ge low) (.compare f .le high))
    | _ => .error .rangeBounds
  | .isNull => .ok (.isNull f false)
  | .isNotNull => .ok (.isNull f true)

def toPredicate (m : FieldMap α) : Node → Except BindError (Predicate α)
  | n@(literal _) | n@(field _) => .error (.notBoolean n.text)
  | group n _ => n.toPredicate m
  | negation n _ => do
    let p ← n.toPredicate m
    pure (.not p)
  | binary .and l r _ => do
    let p ← l.toPredicate m
    let q ← r.toPredicate m
    pure (.and p q)
  | binary .or l r _ => do
    let p ← l.toPredicate m
    let q ← r.toPredicate m
    pure (.or p q)
  | binary (.compare c) l r _ => do
    let f ← l.boundField m
    let v ← r.boundValue f
    pure (.compare f c v)
  | call op t args _ => do
    let f ← t.boundField m
    let vs ← boundValues f args
    callPredicate f op vs

end Node

end EntityQuery
