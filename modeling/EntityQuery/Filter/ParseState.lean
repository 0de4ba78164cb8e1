import EntityQuery.Filter.Lexeme
import EntityQuery.Filter.Node

/-!
# Reading a filter lexeme by lexeme

`or` binds loosest, then `and`, both to the left; `not` takes one clause or one pair of parentheses.
A clause is a field with an operator and its literals. `ParseState` holds what has been read so
far: the pending operands at every open parenthesis, and how far the present clause has come.
`ParseState.next?` takes one more lexeme, if the language has it there, so that the lexemes that
may follow are those with a next state (`expected`).
-/

namespace EntityQuery

/-- A clause that is not complete. -/
inductive Clause where
  /-- Waits for an operator. -/
  | subject (field : String)
  /-- After `not`: waits for `in` or `@contains`. -/
  | negated (field : String)
  /-- After `is`: waits for `null` or `not`. -/
  | isWord (field : String)
  /-- After `is not`: waits for `null`. -/
  | isNot (field : String)
  | comparison (field : String) (c : Comparison)
  /-- Waits for a literal, bare or in parentheses. -/
  | test (field : String) (op : CallOp)
  | testOpen (field : String) (op : CallOp)
  | testClose (field : String) (op : CallOp) (argument : Literal)
  /-- Waits for the parenthesis that opens a list. -/
  | list (field : String) (op : CallOp)
  /-- Waits for one more item of a list. -/
  | item (field : String) (op : CallOp) (items : List Literal)
  /-- Waits for a comma or the end of a list. -/
  | items (field : String) (op : CallOp) (items : List Literal)
  /-- Waits for the parenthesis that opens a range. -/
  | range (field : String)
  | low (field : String)
  | comma (field : String) (low : Literal)
  | high (field : String) (low : Literal)
  | close (field : String) (low high : Literal)
  deriving DecidableEq, Repr

namespace Clause

/-- A clause goes on or is complete. -/
inductive Step where
  | more (c : Clause)
  | done (n : Node)

/-- The literal that a lexeme is. Quotes are taken off, and truth values are in lower case. -/
def literal? (l : Lexeme) : Option Literal :=
  match l.terminal with
  | .quoted => some ⟨Text.unquote (String.ofList l.text), .string⟩
  | .number => some ⟨String.ofList l.text, .number⟩
  | .dateTime => some ⟨String.ofList l.text, .dateTime⟩
  | .trueWord => some ⟨"true", .boolean⟩
  | .falseWord => some ⟨"false", .boolean⟩
  | .guid | .name => some ⟨String.ofList l.text, .identifier⟩
  | _ => none

/-- A call on a field, complete. -/
def call (field : String) (op : CallOp) (arguments : List Literal) : Step :=
  .done (.mkCall op (.field field) (arguments.map .literal))

/-- What follows the name of a field. -/
def operator? (field : String) : Terminal → Option Clause
  | .compare c => some (comparison field c)
  | .contains => some (test field .contains)
  | .startsWith => some (test field .startsWith)
  | .endsWith => some (test field .endsWith)
  | .inWord => some (list field .isIn)
  | .betweenWord => some (range field)
  | .isWord => some (isWord field)
  | .notWord => some (negated field)
  | _ => none

/-- The clause with one more lexeme. -/
def next? (c : Clause) (l : Lexeme) : Option Step :=
  match c with
  | subject f => (operator? f l.terminal).map .more
  | negated f =>
    match l.terminal with
    | .inWord => some (.more (list f .notIn))
    | .contains => some (.more (test f .notContains))
    | _ => none
  | isWord f =>
    match l.terminal with
    | .nullWord => some (call f .isNull [])
    | .notWord => some (.more (isNot f))
    | _ => none
  | isNot f => if l.terminal = .nullWord then some (call f .isNotNull []) else none
  | comparison f c =>
    (literal? l).map fun v => .done (.mkBinary (.compare c) (.field f) (.literal v))
  | test f op =>
    if l.terminal = .leftParen then some (.more (testOpen f op))
    else (literal? l).map fun v => call f op [v]
  | testOpen f op => (literal? l).map fun v => .more (testClose f op v)
  | testClose f op v => if l.terminal = .rightParen then some (call f op [v]) else none
  | list f op => if l.terminal = .leftParen then some (.more (item f op [])) else none
  | item f op vs => (literal? l).map fun v => .more (items f op (vs ++ [v]))
  | items f op vs =>
    match l.terminal with
    | .comma => some (.more (item f op vs))
    | .rightParen => some (call f op vs)
    | _ => none
  | range f => if l.terminal = .leftParen then some (.more (low f)) else none
  | low f => (literal? l).map fun v => .more (comma f v)
  | comma f v => if l.terminal = .comma then some (.more (high f v)) else none
  | high f v => (literal? l).map fun w => .more (close f v w)
  | close f v w => if l.terminal = .rightParen then some (call f .between [v, w]) else none

end Clause

/-- The operands that wait at one level of parentheses for what stands to the right of them. -/
structure Pending where
  /-- The left operand of an `or`. -/
  disjunct : Option Node
  /-- The left operand of an `and`. -/
  conjunct : Option Node
  /-- Does a `not` wait for its operand? -/
  negated : Bool
  deriving Repr

namespace Pending

def empty : Pending := ⟨none, none, false⟩

/-- An operand joined to the left operand that waits for it. -/
def join (op : BinaryOp) (left : Option Node) (right : Node) : Node :=
  match left with
  | none => right
  | some l => .mkBinary op l right

/-- The conjunction up to a clause or group that is complete. -/
def conjunction (p : Pending) (primary : Node) : Node :=
  join .and p.conjunct (if p.negated then .mkNot primary else primary)

/-- The disjunction up to a conjunction that is complete. -/
def disjunction (p : Pending) (conjunction : Node) : Node := join .or p.disjunct conjunction

end Pending

/-- What the innermost level waits for. -/
inductive Focus where
  /-- A clause or a group, or before either a `not`. -/
  | operand
  | clause (c : Clause)
  /-- An `and`, an `or` or the end, after the conjunction so far. -/
  | complete (conjunction : Node)
  deriving Repr

structure ParseState where
  /-- The levels around the innermost one, from the inside out. -/
  outer : List Pending
  pending : Pending
  focus : Focus
  deriving Repr

namespace ParseState

def start : ParseState := ⟨[], .empty, .operand⟩

/-- The state after a clause or a group at the innermost level. -/
def primary (outer : List Pending) (p : Pending) (n : Node) : ParseState :=
  ⟨outer, p, .complete (p.conjunction n)⟩

/-- The state with one more lexeme. -/
def next? (s : ParseState) (l : Lexeme) : Option ParseState :=
  match s.focus with
  | .operand =>
    match l.terminal with
    | .notWord =>
      if s.pending.negated then none
      else some { s with pending := { s.pending with negated := true } }
    | .leftParen => some ⟨s.pending :: s.outer, .empty, .operand⟩
    | .name => some { s with focus := .clause (.subject (String.ofList l.text)) }
    | _ => none
  | .clause c =>
    match c.next? l with
    | some (.more c) => some { s with focus := .clause c }
    | some (.done n) => some (primary s.outer s.pending n)
    | none => none
  | .complete n =>
    match l.terminal with
    | .andWord => some ⟨s.outer, ⟨s.pending.disjunct, some n, false⟩, .operand⟩
    | .orWord => some ⟨s.outer, ⟨some (s.pending.disjunction n), none, false⟩, .operand⟩
    | .rightParen =>
      match s.outer with
      | [] => none
      | p :: outer => some (primary outer p (.mkGroup (s.pending.disjunction n)))
    | _ => none

/-- The tree, if the filter may end here. -/
def finish? (s : ParseState) : Option Node :=
  match s.focus, s.outer with
  | .complete n, [] => some (s.pending.disjunction n)
  | _, _ => none

/-- The classes of lexemes that may come next. -/
def expected (s : ParseState) : List Terminal :=
  Terminal.every.filter fun t => (s.next? ⟨t, [], 0⟩).isSome

/-- Is the conjunction at the innermost level complete? -/
def isComplete (s : ParseState) : Bool :=
  match s.focus with
  | .complete _ => true
  | _ => false

end ParseState

end EntityQuery
