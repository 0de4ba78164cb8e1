import EntityQuery.Filter.Parse

/-!
# What can be wrong with a filter

A filter fails in one of three stages: it is not in the language (`SyntaxError`), it does not fit
the fields it names or the limits (`ValidationError`), or it cannot be bound (`BindError`). The
last one meets only trees that were not validated.
-/

namespace EntityQuery

def SyntaxError.text (e : SyntaxError) : String :=
  "syntax error at position " ++ toString e.position ++ " near '" ++ e.fragment ++ "': " ++
    e.fault.message

/-- How a clause can fail to be a field with an operator and literals. -/
inductive Malformation where
  | notBoolean
  | leftNotField
  | rightNotLiteral
  | targetNotField
  | argumentNotLiteral
  | argumentCount (op : CallOp) (count : Nat)
  deriving DecidableEq, Repr

/-- How many arguments an operator takes. -/
def CallOp.arityText (op : CallOp) : String :=
  match op.arity with
  | (least, some most) =>
    if most = least then "exactly " ++ toString least
    else "between " ++ toString least ++ " and " ++ toString most
  | (least, none) => "at least " ++ toString least

def Malformation.reason : Malformation → String
  | notBoolean => "expected a comparison or logical expression"
  | leftNotField => "left side of a comparison must be a field"
  | rightNotLiteral => "right side of a comparison must be a literal"
  | targetNotField => "operator target must be a field"
  | argumentNotLiteral => "operator arguments must be literals"
  | argumentCount op count =>
    "'" ++ op.symbol ++ "' takes " ++ op.arityText ++ " argument(s), got " ++ toString count

inductive ValidationError where
  | depthExceeded (depth max : Nat)
  | tooManyNodes (count max : Nat)
  | tooLong (length max : Nat)
  | unknownField (field : String)
  | notFilterable (field : String)
  | operatorNotAllowed (field operator : String) (type : FieldType)
  | literalMismatch (field literal : String) (type : FieldType)
  | malformed (clause : String) (m : Malformation)
  deriving DecidableEq, Repr

namespace ValidationError

def text : ValidationError → String
  | depthExceeded depth max =>
    "filter nesting depth " ++ toString depth ++ " exceeds the maximum of " ++ toString max
  | tooManyNodes count max =>
    "filter has " ++ toString count ++ " operator nodes, the maximum is " ++ toString max
  | tooLong length max =>
    "filter is " ++ toString length ++ " characters long, the maximum is " ++ toString max
  | unknownField field => "unknown field '" ++ field ++ "'"
  | notFilterable field => "field '" ++ field ++ "' cannot be used in a filter"
  | operatorNotAllowed field operator type =>
    "operator '" ++ operator ++ "' cannot be applied to " ++ type.name ++ " field '" ++ field ++ "'"
  | literalMismatch field literal type =>
    literal ++ " is not a valid " ++ type.name ++ " value for field '" ++ field ++ "'"
  | malformed clause m => "malformed expression '" ++ clause ++ "': " ++ m.reason

/-- The field that an error is about. -/
def field? : ValidationError → Option String
  | unknownField field | notFilterable field | operatorNotAllowed field _ _
  | literalMismatch field _ _ => some field
  | _ => none

end ValidationError

inductive BindError where
  | notBoolean (expression : String)
  | unknownField (name : String)
  | notField (expression : String)
  | notLiteral (expression : String)
  | literalMismatch (field literal : String) (type : FieldType)
  /-- A test on a text without exactly one text; the field is named by one of the binders. -/
  | textArgument (op : CallOp) (field : Option String)
  | rangeBounds
  deriving DecidableEq, Repr

def BindError.reason : BindError → String
  | notBoolean expression => "'" ++ expression ++ "' is not a boolean expression"
  | unknownField name => "unknown field '" ++ name ++ "'"
  | notField expression => "expected a field, got '" ++ expression ++ "'"
  | notLiteral expression => "expected a literal, got '" ++ expression ++ "'"
  | literalMismatch field literal type =>
    "'" ++ literal ++ "' is not a " ++ type.name ++ " value for '" ++ field ++ "'"
  | textArgument op none => "'" ++ op.symbol ++ "' needs one string argument"
  | textArgument op (some field) =>
    "'" ++ op.symbol ++ "' on '" ++ field ++ "' needs one string argument"
  | rangeBounds => "'between' needs exactly two bounds"

inductive FilterError where
  | syntaxError (e : SyntaxError)
  | validation (e : ValidationError)
  | bind (e : BindError)
  deriving DecidableEq, Repr

namespace FilterError

def kind : FilterError → String
  | syntaxError _ => "SyntaxError"
  | validation _ => "ValidationError"
  | bind _ => "BindError"

def text : FilterError → String
  | syntaxError e => e.text
  | validation e => "invalid filter: " ++ e.text
  | bind e => "cannot bind filter: " ++ e.reason

end FilterError

end EntityQuery
