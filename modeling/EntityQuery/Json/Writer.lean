import EntityQuery.Json.Basic
import EntityQuery.Number.Shortest
import EntityQuery.Text.Hex

/-!
# JSON text

`Json.pretty` writes a value over several lines with two spaces to a level; `Json.compact` writes
it without spaces. In strings only the quote, the backslash and control characters are escaped.
A number that is not finite is written as null.
-/

namespace EntityQuery.Json

/-- Floats stand in full from 10^-5 up to 10^16, else with a signed exponent. -/
def layout : Number.Layout := ⟨-5, 16, true, .even⟩

def escapeChar (c : Char) : List Char :=
  if c = '"' then ['\\', '"']
  else if c = '\\' then ['\\', '\\']
  else if c = '\x08' then ['\\', 'b']
  else if c = '\t' then ['\\', 't']
  else if c = '\n' then ['\\', 'n']
  else if c = '\x0c' then ['\\', 'f']
  else if c = '\r' then ['\\', 'r']
  else if c.toNat < 0x20 then '\\' :: 'u' :: Text.hexDigits 4 c.toNat
  else [c]

def stringText (s : String) : String :=
  String.ofList ('"' :: s.toList.flatMap escapeChar ++ ['"'])

def floatText : Number → String
  | .finite s u => Number.finiteText layout s u
  | _ => "null"

/-- The text of a value without parts. -/
def scalarText : Json → String
  | null => "null"
  | bool b => if b then "true" else "false"
  | int n => toString n
  | float x => floatText x
  | string s => stringText s
  | array _ => "[]"
  | object _ => "\x7b\x7d"

mutual

def compact : Json → String
  | array js => "[" ++ compactItems js ++ "]"
  | object ms => "\x7b" ++ compactMembers ms ++ "\x7d"
  | j => j.scalarText

def compactItems : List Json → String
  | [] => ""
  | [j] => j.compact
  | j :: js => j.compact ++ "," ++ compactItems js

def compactMembers : List (String × Json) → String
  | [] => ""
  | [(k, j)] => stringText k ++ ":" ++ j.compact
  | (k, j) :: ms => stringText k ++ ":" ++ j.compact ++ "," ++ compactMembers ms

end

/-- A line break and the indent of a level. -/
def newline (level : Nat) : String := "\n" ++ String.ofList (List.replicate (2 * level) ' ')

mutual

def prettyAt (level : Nat) : Json → String
  | array [] => "[]"
  | array (j :: js) => "[" ++ prettyItems (level + 1) (j :: js) ++ newline level ++ "]"
  | object [] => "\x7b\x7d"
  | object (m :: ms) => "\x7b" ++ prettyMembers (level + 1) (m :: ms) ++ newline level ++ "\x7d"
  | j => j.scalarText

def prettyItems (level : Nat) : List Json → String
  | [] => ""
  | [j] => newline level ++ j.prettyAt level
  | j :: js => newline level ++ j.prettyAt level ++ "," ++ prettyItems level js

def prettyMembers (level : Nat) : List (String × Json) → String
  | [] => ""
  | [(k, j)] => newline level ++ stringText k ++ ": " ++ j.prettyAt level
  | (k, j) :: ms =>
    newline level ++ stringText k ++ ": " ++ j.prettyAt level ++ "," ++ prettyMembers level ms

end

def pretty (j : Json) : String := j.prettyAt 0

end EntityQuery.Json
