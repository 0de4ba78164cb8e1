import EntityQuery.Filter.ParseState

/-!
# Filters from text

`Node.parse` reads a filter. What cannot be read is a `SyntaxError`: the first lexeme that cannot
stand where it stands, the end of a text that stops too early, or a place where no lexeme can be
cut. The lexemes in front of it are always fit to be continued.
-/

namespace EntityQuery

inductive SyntaxFault where
  /-- The text has nothing but blanks. -/
  | blank
  /-- No lexeme can be cut here. -/
  | unrecognized
  | unexpected (expected : List Terminal)
  | unfinished (expected : List Terminal)
  deriving DecidableEq, Repr

/-- What is wrong, at which byte, and the piece of the text that stands there. -/
structure SyntaxError where
  fragment : String
  position : Nat
  fault : SyntaxFault
  deriving DecidableEq, Repr

namespace SyntaxError

/-- Stands for the fragment after the last character. -/
def endOfInput : String := "<end of input>"

def expectedText : List Terminal → String
  | [] => "nothing more"
  | ts => ", ".intercalate (ts.map Terminal.description)

end SyntaxError

def SyntaxFault.message : SyntaxFault → String
  | blank => "filter is empty"
  | unrecognized => "unrecognized token"
  | unexpected ts => "unexpected token, expected " ++ SyntaxError.expectedText ts
  | unfinished ts => "unexpected end of input, expected " ++ SyntaxError.expectedText ts

namespace ParseState

/-- What is listed as expected in place of a lexeme, or of the end when there is none. Where a
conjunction may end, one that meets a closing parenthesis or the end is taken to have ended, so
that `and` is not listed. -/
def expectedInsteadOf (s : ParseState) (found : Option Terminal) : List Terminal :=
  if s.isComplete ∧ (found = none ∨ found = some .rightParen) then
    s.expected.filter (· ≠ .andWord)
  else s.expected

/-- The state after all lexemes, or the error at the first one that does not fit. -/
def run (s : ParseState) : List Lexeme → Except SyntaxError ParseState
  | [] => .ok s
  | l :: ls =>
    match s.next? l with
    | some t => t.run ls
    | none =>
      .error ⟨String.ofList l.text, l.start, .unexpected (s.expectedInsteadOf (some l.terminal))⟩

end ParseState

namespace Node

/-- The tree of a cut text; a text that ends too early is reported at the end of its last
lexeme. -/
def ofCut (c : Cut) : Except SyntaxError Node :=
  match ParseState.start.run c.lexemes with
  | .error e => .error e
  | .ok s =>
    match c.stuck with
    | some (position, rest) => .error ⟨String.ofList (Text.word rest), position, .unrecognized⟩
    | none =>
      match s.finish? with
      | some n => .ok n
      | none =>
        let position := (c.lexemes.getLast?.map Lexeme.stop).getD 0
        .error ⟨SyntaxError.endOfInput, position, .unfinished (s.expectedInsteadOf none)⟩

def parse (s : String) : Except SyntaxError Node :=
  if Text.isBlankText s then .error ⟨SyntaxError.endOfInput, 0, .blank⟩
  else ofCut (.ofText s)

end Node

end EntityQuery
