import EntityQuery.Filter.Operator
import EntityQuery.Text.Quoted

/-!
# Filter trees

A `Node` is a filter as a tree: names and literals at the leaves, operators above them, and a
`group` for each pair of parentheses in the source. Operator nodes carry their `Size`, which the
builders (`mkNot`, `mkBinary`, `mkCall`, `mkGroup`) compute from the parts: the depth is one more
than the deepest nesting of groups, the cost is the number of operator nodes. `text` writes a tree
in the filter language; it adds no parentheses, since groups are nodes.
-/

namespace EntityQuery

/-- What the shape of a literal says about its type. -/
inductive LiteralKind where
  | string
  | number
  | boolean
  | dateTime
  /-- A bare word or a GUID; the field that it meets decides its type. -/
  | identifier
  deriving DecidableEq, Repr

/-- A literal: its text, with quotes and escapes already resolved, and the kind of its shape. -/
structure Literal where
  text : String
  kind : LiteralKind
  deriving DecidableEq, Repr

/-- Only a string is written differently from its text. -/
def Literal.display (l : Literal) : String :=
  match l.kind with
  | .string => Text.quote l.text
  | _ => l.text

structure Size where
  depth : Nat
  cost : Nat
  deriving DecidableEq, Repr

/-- The size of a leaf. -/
def Size.leaf : Size := ⟨1, 0⟩

/-- The size of several trees side by side. -/
def Size.join (a b : Size) : Size := ⟨max a.depth b.depth, a.cost + b.cost⟩

/-- The size with one more operator node on top. -/
def Size.succ (a : Size) : Size := ⟨a.depth, a.cost + 1⟩

/-- The size inside one more group. -/
def Size.nest (a : Size) : Size := ⟨a.depth + 1, a.cost + 1⟩

inductive Node where
  | literal (l : Literal)
  | field (name : String)
  | negation (operand : Node) (size : Size)
  | binary (op : BinaryOp) (left right : Node) (size : Size)
  | call (op : CallOp) (target : Node) (arguments : List Node) (size : Size)
  | group (inner : Node) (size : Size)
  deriving BEq, Repr, Inhabited

namespace Node

/-- The size that a node carries. -/
def size : Node → Size
  | literal _ | field _ => .leaf
  | negation _ s | binary _ _ _ s | call _ _ _ s | group _ s => s

def depth (n : Node) : Nat := n.size.depth

def cost (n : Node) : Nat := n.size.cost

def mkNot (operand : Node) : Node := negation operand operand.size.succ

def mkBinary (op : BinaryOp) (left right : Node) : Node :=
  binary op left right (left.size.join right.size).succ

def mkCall (op : CallOp) (target : Node) (arguments : List Node) : Node :=
  call op target arguments ((arguments.map size).foldl Size.join target.size).succ

def mkGroup (inner : Node) : Node := group inner inner.size.nest

mutual

/-- The field names of a tree from left to right, repetitions included. -/
def fields : Node → List String
  | literal _ => []
  | field name => [name]
  | negation n _ => n.fields
  | binary _ l r _ => l.fields ++ r.fields
  | call _ t args _ => t.fields ++ fieldsOfAll args
  | group n _ => n.fields

def fieldsOfAll : List Node → List String
  | [] => []
  | n :: ns => n.fields ++ fieldsOfAll ns

end

mutual

/-- The tree in the filter language. -/
def text : Node → String
  | literal l => l.display
  | field name => name
  | negation n _ => "not " ++ n.text
  | binary op l r _ => l.text ++ " " ++ op.symbol ++ " " ++ r.text
  | call op t args _ =>
    match args with
    | [] => t.text ++ " " ++ op.symbol
    | a :: as => t.text ++ " " ++ op.symbol ++ " (" ++ a.text ++ textOfRest as ++ ")"
  | group n _ => "(" ++ n.text ++ ")"

/-- Arguments after the first one, each behind a comma. -/
def textOfRest : List Node → String
  | [] => ""
  | n :: ns => ", " ++ n.text ++ textOfRest ns

end

/-! ## Induction -/

/-- Induction on a tree, with a hypothesis for each argument of a call. -/
theorem induction {P : Node → Prop} (literal : ∀ l, P (literal l)) (field : ∀ name, P (field name))
    (negation : ∀ n s, P n → P (negation n s))
    (binary : ∀ op l r s, P l → P r → P (binary op l r s))
    (call : ∀ op t args s, P t → (∀ a ∈ args, P a) → P (call op t args s))
    (group : ∀ n s, P n → P (group n s)) (n : Node) : P n :=
  @Node.rec P (fun args => ∀ a ∈ args, P a) literal field (fun n s => negation n s)
    (fun op l r s => binary op l r s) (fun op t args s => call op t args s)
    (fun n s => group n s) (fun _ h => absurd h List.not_mem_nil)
    (fun _ _ hn hns => List.forall_mem_cons.2 ⟨hn, hns⟩) n

/-- Induction as validation and both binders recurse: not into the parts of a clause, a comparison
or a call. -/
theorem clauseInduction {P : Node → Prop} (literal : ∀ l, P (literal l))
    (field : ∀ name, P (field name)) (group : ∀ n s, P n → P (group n s))
    (negation : ∀ n s, P n → P (negation n s))
    (and : ∀ l r s, P l → P r → P (binary .and l r s))
    (or : ∀ l r s, P l → P r → P (binary .or l r s))
    (compare : ∀ c l r s, P (binary (.compare c) l r s))
    (call : ∀ op t args s, P (call op t args s)) (n : Node) : P n := by
  induction n using Node.induction with
  | literal l => exact literal l
  | field name => exact field name
  | negation n s ih => exact negation n s ih
  | binary op l r s ihl ihr =>
    cases op with
    | and => exact and l r s ihl ihr
    | or => exact or l r s ihl ihr
    | compare c => exact compare c l r s
  | call op t args s => exact call op t args s
  | group n s ih => exact group n s ih

end Node

end EntityQuery
