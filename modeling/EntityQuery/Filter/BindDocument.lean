import EntityQuery.Document.Filter
import EntityQuery.Filter.Bind

/-!
# From filters to document filters

`Node.toDocumentFilter` binds a tree to a field map for a document store. Fields become paths and
literals stored values; tests of texts become patterns that find the needle as it is. The filter
selects the documents of those entities that the predicate of the tree selects.
-/

namespace EntityQuery

variable {α : Type}

namespace Node

/-- The operator of a comparison in document filters. -/
def comparisonKey : Comparison → String
  | .eq => "$eq"
  | .ne => "$ne"
  | .gt => "$gt"
  | .ge => "$gte"
  | .lt => "$lt"
  | .le => "$lte"

/-- A condition that a text has a needle between two anchors. -/
def patternCondition (f : Field α) (op : CallOp) (front back : String) :
    List Value → Except BindError Json
  | [.string needle] =>
    .ok (.object [("$regex", .string (front ++ Document.escapePattern needle ++ back))])
  | _ => .error (.textArgument op (some f.name))

def callCondition (f : Field α) (op : CallOp) (values : List Value) : Except BindError Json :=
  match op with
  | .contains => patternCondition f op "" "" values
  | .notContains => do
    let c ← patternCondition f op "" "" values
    pure (.object [("$not", c)])
  | .startsWith => patternCondition f op "\\A" "" values
  | .endsWith => patternCondition f op "" "\\z" values
  | .isIn => .ok (.object [("$in", .array (values.map Value.toDocument))])
  | .notIn => .ok (.object [("$nin", .array (values.map Value.toDocument))])
  | .between =>
    match values with
    | [low, high] => .ok (.object [("$gte", low.toDocument), ("$lte", high.toDocument)])
    | _ => .error .rangeBounds
  | .isNull => .ok (.object [("$eq", .null)])
  | .isNotNull => .ok (.object [("$ne", .null)])

def toDocumentFilter (m : FieldMap α) : Node → Except BindError DocumentFilter
  | n@(literal _) | n@(field _) => .error (.notBoolean n.text)
  | group n _ => n.toDocumentFilter m
  | negation n _ => do
    let f ← n.toDocumentFilter m
    pure f.negate
  | binary .and l r _ => do
    let f ← l.toDocumentFilter m
    let g ← r.toDocumentFilter m
    pure (.join "$and" f g)
  | binary .or l r _ => do
    let f ← l.toDocumentFilter m
    let g ← r.toDocumentFilter m
    pure (.join "$or" f g)
  | binary (.compare c) l r _ => do
    let f ← l.boundField m
    let v ← r.boundValue f
    pure (.field f.path (.object [(comparisonKey c, v.toDocument)]))
  | call op t args _ => do
    let f ← t.boundField m
    let vs ← boundValues f args
    let c ← callCondition f op vs
    pure (.field f.path c)

end Node

end EntityQuery
