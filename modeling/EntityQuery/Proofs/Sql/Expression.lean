import EntityQuery.Proofs.Sql.Token

/-!
# Reading SQL conditions

How a database reads the tokens of a condition. NOT binds tighter than AND and AND tighter than OR,
and the latter two group to the left. `ReadState` holds the operands that wait at each open
parenthesis and how far the present test has come; `Expr.ofText?` is the expression of a whole
text, if it has one.
-/

namespace EntityQuery.Sql

/-- A boolean expression over the columns of a row and numbered placeholders. -/
inductive Expr where
  | compare (column : String) (op : Comparison) (placeholder : Nat)
  | like (column : String) (negated : Bool) (placeholder : Nat) (escape : Char)
  | isIn (column : String) (negated : Bool) (placeholders : List Nat)
  | isNull (column : String) (negated : Bool)
  | truth (b : Bool)
  | coalesce (first second : Expr)
  | not (e : Expr)
  | and (left right : Expr)
  | or (left right : Expr)
  deriving DecidableEq, Repr

/-! ## Tests of a column -/

/-- A test that is not complete. -/
inductive PartialTest where
  /-- Waits for an operator. -/
  | subject (column : String)
  /-- After NOT: waits for LIKE or IN. -/
  | negated (column : String)
  | isWord (column : String)
  | isNot (column : String)
  | comparison (column : String) (op : Comparison)
  | like (column : String) (negated : Bool)
  /-- Waits for ESCAPE, and then for the escape character. -/
  | pattern (column : String) (negated : Bool) (placeholder : Nat)
  | escape (column : String) (negated : Bool) (placeholder : Nat)
  | list (column : String) (negated : Bool)
  | item (column : String) (negated : Bool) (placeholders : List Nat)
  | items (column : String) (negated : Bool) (placeholders : List Nat)
  deriving DecidableEq, Repr

namespace PartialTest

inductive Step where
  | more (t : PartialTest)
  | done (e : Expr)

/-- The test with one more token. -/
def next? : PartialTest → Token → Option Step
  | subject c, .compare op => some (.more (comparison c op))
  | subject c, .keyword .likeWord => some (.more (like c false))
  | subject c, .keyword .inWord => some (.more (list c false))
  | subject c, .keyword .notWord => some (.more (negated c))
  | subject c, .keyword .isWord => some (.more (isWord c))
  | negated c, .keyword .likeWord => some (.more (like c true))
  | negated c, .keyword .inWord => some (.more (list c true))
  | isWord c, .keyword .nullWord => some (.done (.isNull c false))
  | isWord c, .keyword .notWord => some (.more (isNot c))
  | isNot c, .keyword .nullWord => some (.done (.isNull c true))
  | comparison c op, .placeholder n => some (.done (.compare c op n))
  | like c b, .placeholder n => some (.more (pattern c b n))
  | pattern c b n, .keyword .escapeWord => some (.more (escape c b n))
  | escape c b n, .text s =>
    match s.toList with
    | [e] => some (.done (.like c b n e))
    | _ => none
  | list c b, .leftParen => some (.more (item c b []))
  | item c b ns, .placeholder n => some (.more (items c b (ns ++ [n])))
  | items c b ns, .comma => some (.more (item c b ns))
  | items c b ns, .rightParen => some (.done (.isIn c b ns))
  | _, _ => none

end PartialTest

/-! ## Levels of parentheses -/

/-- What stands in front of a level. -/
inductive Opening where
  | start
  | paren
  /-- COALESCE and a parenthesis. -/
  | first
  /-- The comma behind the first argument of COALESCE. -/
  | second (first : Expr)
  deriving Repr

/-- The operands that wait at one level for what stands to the right of them. -/
structure Level where
  opening : Opening
  /-- The left operand of an OR. -/
  disjunct : Option Expr
  /-- The left operand of an AND. -/
  conjunct : Option Expr
  /-- How many NOTs wait for their operand. -/
  nots : Nat
  deriving Repr

namespace Level

def ofOpening (o : Opening) : Level := ⟨o, none, none, 0⟩

def negate : Nat → Expr → Expr
  | 0, e => e
  | n + 1, e => negate n (.not e)

/-- The conjunction up to an operand that is complete. -/
def conjunction (p : Level) (e : Expr) : Expr :=
  match p.conjunct with
  | none => negate p.nots e
  | some l => .and l (negate p.nots e)

/-- The disjunction up to a conjunction that is complete. -/
def disjunction (p : Level) (e : Expr) : Expr :=
  match p.disjunct with
  | none => e
  | some l => .or l e

end Level

/-- What the innermost level waits for. -/
inductive ReadFocus where
  | operand
  /-- The parenthesis behind COALESCE. -/
  | arguments
  | test (t : PartialTest)
  /-- An AND, an OR or the end, after the conjunction so far. -/
  | complete (conjunction : Expr)
  deriving Repr

structure ReadState where
  /-- The levels around the innermost one, from the inside out. -/
  outer : List Level
  level : Level
  focus : ReadFocus
  deriving Repr

namespace ReadState

def start : ReadState := ⟨[], .ofOpening .start, .operand⟩

/-- The state after an operand at the innermost level. -/
def primary (outer : List Level) (p : Level) (e : Expr) : ReadState :=
  ⟨outer, ⟨p.opening, p.disjunct, none, 0⟩, .complete (p.conjunction e)⟩

/-- The end of a level, after its conjunction. -/
def close? (outer : List Level) (p : Level) (e : Expr) : Option ReadState :=
  match p.opening, outer with
  | .paren, q :: outer => some (primary outer q (p.disjunction e))
  | .second first, q :: outer => some (primary outer q (.coalesce first (p.disjunction e)))
  | _, _ => none

/-- The state with one more token. -/
def step? (s : ReadState) (t : Token) : Option ReadState :=
  match s.focus with
  | .operand =>
    match t with
    | .keyword .notWord => some { s with level := { s.level with nots := s.level.nots + 1 } }
    | .keyword .coalesceWord => some { s with focus := .arguments }
    | .keyword .trueWord => some (primary s.outer s.level (.truth true))
    | .keyword .falseWord => some (primary s.outer s.level (.truth false))
    | .leftParen => some ⟨s.level :: s.outer, .ofOpening .paren, .operand⟩
    | .name c => some { s with focus := .test (.subject c) }
    | _ => none
  | .arguments =>
    if t = .leftParen then some ⟨s.level :: s.outer, .ofOpening .first, .operand⟩ else none
  | .test p =>
    match p.next? t with
    | some (.more p) => some { s with focus := .test p }
    | some (.done e) => some (primary s.outer s.level e)
    | none => none
  | .complete e =>
    match t with
    | .keyword .andWord =>
      some ⟨s.outer, ⟨s.level.opening, s.level.disjunct, some e, 0⟩, .operand⟩
    | .keyword .orWord =>
      some ⟨s.outer, ⟨s.level.opening, some (s.level.disjunction e), none, 0⟩, .operand⟩
    | .comma =>
      match s.level.opening with
      | .first => some ⟨s.outer, .ofOpening (.second (s.level.disjunction e)), .operand⟩
      | _ => none
    | .rightParen => close? s.outer s.level e
    | _ => none

def steps? (s : ReadState) (ts : List Token) : Option ReadState := ts.foldlM step? s

/-- The expression, if the text may end here. -/
def finish? (s : ReadState) : Option Expr :=
  match s.focus, s.outer with
  | .complete e, [] => some (s.level.disjunction e)
  | _, _ => none

@[simp] theorem steps?_nil (s : ReadState) : s.steps? [] = some s := rfl

@[simp] theorem steps?_cons (s : ReadState) (t : Token) (ts : List Token) :
    s.steps? (t :: ts) = (s.step? t).bind fun s' => s'.steps? ts := List.foldlM_cons

theorem steps?_append_of_eq {s s' : ReadState} {us : List Token} (h : s.steps? us = some s')
    (ts : List Token) : s.steps? (us ++ ts) = s'.steps? ts := by
  have happend : s.steps? (us ++ ts) = (s.steps? us).bind fun s' => s'.steps? ts :=
    List.foldlM_append
  rw [happend, h, Option.bind_some]

end ReadState

namespace Expr

def ofTokens? (ts : List Token) : Option Expr := (ReadState.start.steps? ts).bind (·.finish?)

def ofText? (s : String) : Option Expr := (Token.reader.tokens? s.toList).bind ofTokens?

/-- The signs and words of a condition that has no parentheses of its own. -/
example : ofText? "\"a\" IS NULL or not B < $12 and NOT NOT c Not In ($1, $2)" =
    some (.or (.isNull "a" false)
      (.and (.not (.compare "b" .lt 12)) (.not (.not (.isIn "c" true [1, 2]))))) := by
  decide +kernel

end Expr

end EntityQuery.Sql
