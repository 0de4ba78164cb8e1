import EntityQuery.Filter.Builders
import EntityQuery.Json.Fields

/-!
# Filter trees in JSON

`Node.toJson` writes a tree as nested objects, each with its kind under `kind` and its sizes as they
stand; `Node.ofJson?` reads them back, so that a tree that was read carries the sizes of its text
until the builders make it anew (`Node.resize`). A node may also stand as an array that begins with
its kind, and a node inside another may give the place of its kind in `kindNames`.
-/

namespace EntityQuery

def LiteralKind.code : LiteralKind → String
  | string => "String"
  | number => "Number"
  | boolean => "Boolean"
  | dateTime => "DateTime"
  | identifier => "Identifier"

def LiteralKind.ofCode? : String → Option LiteralKind
  | "String" => some string
  | "Number" => some number
  | "Boolean" => some boolean
  | "DateTime" => some dateTime
  | "Identifier" => some identifier
  | _ => none

def Comparison.code : Comparison → String
  | eq => "Eq"
  | ne => "Ne"
  | gt => "Gt"
  | ge => "Ge"
  | lt => "Lt"
  | le => "Le"

def Comparison.ofCode? : String → Option Comparison
  | "Eq" => some eq
  | "Ne" => some ne
  | "Gt" => some gt
  | "Ge" => some ge
  | "Lt" => some lt
  | "Le" => some le
  | _ => none

def BinaryOp.code : BinaryOp → String
  | and => "And"
  | or => "Or"
  | compare c => c.code

def BinaryOp.ofCode? : String → Option BinaryOp
  | "And" => some and
  | "Or" => some or
  | s => (Comparison.ofCode? s).map compare

def CallOp.code : CallOp → String
  | contains => "Contains"
  | notContains => "NotContains"
  | startsWith => "StartsWith"
  | endsWith => "EndsWith"
  | isIn => "In"
  | notIn => "NotIn"
  | between => "Between"
  | isNull => "IsNull"
  | isNotNull => "IsNotNull"

def CallOp.ofCode? : String → Option CallOp
  | "Contains" => some contains
  | "NotContains" => some notContains
  | "StartsWith" => some startsWith
  | "EndsWith" => some endsWith
  | "In" => some isIn
  | "NotIn" => some notIn
  | "Between" => some between
  | "IsNull" => some isNull
  | "IsNotNull" => some isNotNull
  | _ => none

namespace Node

/-- The members that stand for a size. -/
def sizeMembers (s : Size) : List (String × Json) :=
  [("depth", .int s.depth), ("cost", .int s.cost)]

mutual

def toJson : Node → Json
  | literal l =>
    .object [("kind", .string "literal"), ("value", .string l.text),
      ("declared_type", .string l.kind.code)]
  | field name => .object [("kind", .string "field"), ("name", .string name)]
  | negation n s =>
    .object ([("kind", .string "unary"), ("operator", .string "Not"), ("operand", n.toJson)] ++
      sizeMembers s)
  | binary op l r s =>
    .object ([("kind", .string "binary"), ("operator", .string op.code), ("left", l.toJson),
      ("right", r.toJson)] ++ sizeMembers s)
  | call op t args s =>
    .object ([("kind", .string "call"), ("operator", .string op.code), ("target", t.toJson),
      ("arguments", .array (toJsonAll args))] ++ sizeMembers s)
  | group n s =>
    .object ([("kind", .string "group"), ("expression", n.toJson)] ++ sizeMembers s)

def toJsonAll : List Node → List Json
  | [] => []
  | n :: ns => n.toJson :: toJsonAll ns

end

def kindNames : List String := ["literal", "field", "unary", "binary", "call", "group"]

/-- A JSON value beside the tree, and the list of trees, that it stands for. -/
structure Part where
  json : Json
  node : Option Node
  nodes : Option (List Node)

namespace Part

def count? (p : Part) : Option Nat := p.json.natBelow? UInt64.size

def size? (depth cost : Part) : Option Size := do
  pure ⟨← depth.count?, ← cost.count?⟩

/-- The kind of a node, by its name or by its place among the names. -/
def kind? (p : Part) : Option String :=
  match p.json with
  | .string s => some s
  | .int (.ofNat n) => kindNames[n]?
  | _ => none

/-- A node of a kind from its fields. -/
def node? (kind : String) (fs : Json.Fields Part) : Option Node :=
  match kind with
  | "literal" =>
    match fs.complete? ["value", "declared_type"] with
    | some [value, kind] => do
      pure (literal ⟨← value.json.string?, ← kind.json.variant?.bind LiteralKind.ofCode?⟩)
    | _ => none
  | "field" =>
    match fs.complete? ["name"] with
    | some [name] => name.json.string?.map field
    | _ => none
  | "unary" =>
    match fs.complete? ["operator", "operand", "depth", "cost"] with
    | some [op, operand, depth, cost] => do
      if op.json.variant? ≠ some "Not" then none
      pure (negation (← operand.node) (← size? depth cost))
    | _ => none
  | "binary" =>
    match fs.complete? ["operator", "left", "right", "depth", "cost"] with
    | some [op, left, right, depth, cost] => do
      pure (binary (← op.json.variant?.bind BinaryOp.ofCode?) (← left.node) (← right.node)
        (← size? depth cost))
    | _ => none
  | "call" =>
    match fs.complete? ["operator", "target", "arguments", "depth", "cost"] with
    | some [op, target, arguments, depth, cost] => do
      pure (call (← op.json.variant?.bind CallOp.ofCode?) (← target.node) (← arguments.nodes)
        (← size? depth cost))
    | _ => none
  | "group" =>
    match fs.complete? ["expression", "depth", "cost"] with
    | some [expression, depth, cost] => do
      pure (group (← expression.node) (← size? depth cost))
    | _ => none
  | _ => none

/-- A node from the members of an object. -/
def ofNamed? (members : List (String × Part)) : Option Node := do
  let kind ← (← Json.Fields.unique? members "kind")
  node? (← kind.kind?) (.named members)

/-- A node from the items of an array. -/
def ofPlaced? : List Part → Option Node
  | [] => none
  | kind :: items => kind.kind?.bind fun k => node? k (.placed items)

mutual

def ofJson : Json → Part
  | .array js =>
    let parts := ofItems js
    ⟨.array js, ofPlaced? parts, parts.mapM node⟩
  | .object ms => ⟨.object ms, ofNamed? (ofMembers ms), none⟩
  | j => ⟨j, none, none⟩

def ofItems : List Json → List Part
  | [] => []
  | j :: js => ofJson j :: ofItems js

def ofMembers : List (String × Json) → List (String × Part)
  | [] => []
  | (k, j) :: ms => (k, ofJson j) :: ofMembers ms

end

end Part

/-- Does a node give its kind by name? -/
def namesKind : Json → Bool
  | .object ms => ((Json.Members.get? ms "kind").bind Json.string?).isSome
  | .array js => (js.head?.bind Json.string?).isSome
  | _ => false

/-- The tree that a JSON value stands for. The outermost kind has to be a name. -/
def ofJson? (j : Json) : Option Node := if namesKind j then (Part.ofJson j).node else none

end Node

end EntityQuery
