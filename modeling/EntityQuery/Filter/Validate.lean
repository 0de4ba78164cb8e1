import EntityQuery.Config
import EntityQuery.FieldMap.Basic
import EntityQuery.Filter.Error
import EntityQuery.Filter.Resolve

/-!
# Validation

A tree is valid for a field map when its sizes are within the limits and every clause in it puts a
fitting operator and literals of the right type to a field that is open to filters. The sizes are
looked at first, then the clauses from left to right; the first fault is reported.
-/

namespace EntityQuery

variable {α : Type}

/-- The field that a filter names, if filters may. -/
def FieldMap.filterField (m : FieldMap α) (name : String) : Except ValidationError (Field α) :=
  match m.get? name with
  | none => .error (.unknownField name)
  | some f => if f.canFilter then .ok f else .error (.notFilterable f.name)

namespace Field

def checkOperator (f : Field α) (symbol : String) (c : OperatorClass) :
    Except ValidationError Unit :=
  if c.permits f.type then .ok () else .error (.operatorNotAllowed f.name symbol f.type)

def checkLiteral (f : Field α) (l : Literal) : Except ValidationError Unit :=
  match l.resolve f.type with
  | some _ => .ok ()
  | none => .error (.literalMismatch f.name l.display f.type)

end Field

namespace Node

def malformed (n : Node) (m : Malformation) : ValidationError := .malformed n.text m

def checkComparison (m : FieldMap α) (whole : Node) (c : Comparison) (left right : Node) :
    Except ValidationError Unit :=
  match left with
  | field name =>
    match right with
    | literal l => do
      let f ← m.filterField name
      f.checkOperator c.symbol c.operatorClass
      f.checkLiteral l
    | _ => .error (whole.malformed .rightNotLiteral)
  | _ => .error (whole.malformed .leftNotField)

def checkArguments (f : Field α) (whole : Node) : List Node → Except ValidationError Unit
  | [] => .ok ()
  | literal l :: ns => do
    f.checkLiteral l
    checkArguments f whole ns
  | _ :: _ => .error (whole.malformed .argumentNotLiteral)

def checkCall (m : FieldMap α) (whole : Node) (op : CallOp) (target : Node)
    (arguments : List Node) : Except ValidationError Unit :=
  match target with
  | field name =>
    if op.admits arguments.length then do
      let f ← m.filterField name
      f.checkOperator op.symbol op.operatorClass
      checkArguments f whole arguments
    else .error (whole.malformed (.argumentCount op arguments.length))
  | _ => .error (whole.malformed .targetNotField)

/-- Are all clauses of a tree in order? -/
def check (m : FieldMap α) : Node → Except ValidationError Unit
  | n@(literal _) | n@(field _) => .error (n.malformed .notBoolean)
  | negation n _ | group n _ => n.check m
  | binary .and l r _ | binary .or l r _ => do
    l.check m
    r.check m
  | n@(binary (.compare c) l r _) => checkComparison m n c l r
  | n@(call op t args _) => checkCall m n op t args

/-- Sizes within the limits and all clauses in order. -/
def validate (m : FieldMap α) (limits : FilterLimits) (n : Node) : Except ValidationError Unit :=
  if n.depth > limits.maxDepth then .error (.depthExceeded n.depth limits.maxDepth)
  else if n.cost > limits.maxNodes then .error (.tooManyNodes n.cost limits.maxNodes)
  else n.check m

end Node

/-- Texts that are too long are not parsed. -/
def checkLength (limits : FilterLimits) (raw : String) : Except ValidationError Unit :=
  if raw.length > limits.maxLength then .error (.tooLong raw.length limits.maxLength) else .ok ()

/-- The tree of a filter text that is valid for a field map. -/
def checkFilter (m : FieldMap α) (limits : FilterLimits) (raw : String) :
    Except FilterError Node := do
  (checkLength limits raw).mapError .validation
  let n ← (Node.parse raw).mapError .syntaxError
  (n.validate m limits).mapError .validation
  pure n

end EntityQuery
