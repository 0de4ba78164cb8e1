import EntityQuery.Json.Basic
import EntityQuery.Number.Decimal
import EntityQuery.Text.Hex

/-!
# Reading JSON

`Json.ofText?` reads one value and nothing but blanks around it. A number without point and
exponent that fits 64 bits is an integer, other numbers are the nearest binary64 values; numbers
too large for one are refused, and so are lone surrogates. Repeated keys are kept as they stand.

`Json.ofRecordText?` reads an object of which only some members are asked for. The values of the
others have to be JSON, but their numbers may be of any size and their strings may hold lone
surrogates.
-/

namespace EntityQuery.Json

def isSpace (c : Char) : Bool := c = ' ' || c = '\t' || c = '\n' || c = '\r'

def skipSpace (cs : List Char) : List Char := cs.dropWhile isSpace

def hex4? (a b c d : Char) : Option Nat := do
  let a ← Text.hexValue? a
  let b ← Text.hexValue? b
  let c ← Text.hexValue? c
  let d ← Text.hexValue? d
  pure (((a * 16 + b) * 16 + c) * 16 + d)

def simpleEscape? : Char → Option Char
  | '"' => some '"'
  | '\\' => some '\\'
  | '/' => some '/'
  | 'b' => some '\x08'
  | 'f' => some '\x0c'
  | 'n' => some '\n'
  | 'r' => some '\r'
  | 't' => some '\t'
  | _ => none

/-- Puts a character in front of what was read. -/
def consRead (c : Char) (r : Option (List Char × List Char)) : Option (List Char × List Char) :=
  r.map fun p => (c :: p.1, p.2)

/-- Which values are asked for: all, only some members of the outermost object, or none. -/
inductive Demand where
  | all
  | members (names : List String)
  | nothing
  deriving DecidableEq, Repr

namespace Demand

/-- What is asked for of the value of a member. -/
def ofMember (d : Demand) (key : String) : Demand :=
  match d with
  | all => all
  | members names => if names.contains key then all else nothing
  | nothing => nothing

/-- What is asked for of the items of an array. -/
def ofItems (d : Demand) : Demand :=
  match d with
  | nothing => nothing
  | _ => all

end Demand

/-- The character of a code unit that is no part of a pair; a surrogate is none, and passes for a
replacement character where nothing is asked for. -/
def loneChar? (d : Demand) (n : Nat) : Option Char :=
  if 0xD800 ≤ n ∧ n < 0xE000 then if d = .nothing then some '\ufffd' else none
  else some (Char.ofNat n)

/-- The characters of a string up to its closing quote, and what follows it. -/
def readStringChars (d : Demand) : List Char → Option (List Char × List Char)
  | [] => none
  | '"' :: cs => some ([], cs)
  | '\\' :: 'u' :: u :: v :: w :: x :: '\\' :: 'u' :: e :: f :: g :: h :: cs =>
    match hex4? u v w x, hex4? e f g h with
    | some n, some m =>
      if 0xD800 ≤ n ∧ n < 0xDC00 ∧ 0xDC00 ≤ m ∧ m < 0xE000 then
        consRead (Char.ofNat (0x10000 + (n - 0xD800) * 0x400 + (m - 0xDC00)))
          (readStringChars d cs)
      else (loneChar? d n).bind fun a =>
        consRead a (readStringChars d ('\\' :: 'u' :: e :: f :: g :: h :: cs))
    | _, _ => none
  | '\\' :: 'u' :: u :: v :: w :: x :: cs =>
    match hex4? u v w x with
    | some n => (loneChar? d n).bind fun a => consRead a (readStringChars d cs)
    | none => none
  | '\\' :: c :: cs =>
    match simpleEscape? c with
    | some e => consRead e (readStringChars d cs)
    | none => none
  | c :: cs => if c.toNat < 0x20 ∨ c = '\\' then none else consRead c (readStringChars d cs)

/-- A whole number as it is held: an integer if it fits 64 bits. Minus zero is a float. -/
def ofWhole (negative : Bool) (n : Nat) : Json :=
  if negative then
    if n = 0 then float (.finite true 0)
    else if Int64.minValue.toInt ≤ -n then int (-n)
    else float (.ofInt (-n))
  else if n < UInt64.size then int n
  else float (.ofInt n)

/-- A number that is not too large, or any number where nothing is asked for. -/
def bounded? (d : Demand) : Json → Option Json
  | float (.finite s u) => some (float (.finite s u))
  | float x => if d = .nothing then some (float x) else none
  | j => some j

/-- The fraction of a number: a point needs a digit after it. -/
def readFraction? : List Char → Option (List Char × List Char)
  | '.' :: cs =>
    match cs.takeWhile Char.isDigit with
    | [] => none
    | ds => some (ds, cs.dropWhile Char.isDigit)
  | cs => some ([], cs)

/-- The exponent of a number, if there is one: a mark needs a digit after it and its sign. -/
def readExponent? : List Char → Option (Option Int × List Char)
  | [] => some (none, [])
  | c :: cs =>
    if c = 'e' ∨ c = 'E' then
      let (negative, cs) := Decimal.splitSign cs
      match cs.takeWhile Char.isDigit with
      | [] => none
      | ds =>
        let n : Int := Decimal.digitsValue ds
        some (some (if negative then -n else n), cs.dropWhile Char.isDigit)
    else some (none, c :: cs)

/-- A number without its sign. A leading zero stands alone. -/
def readUnsigned? (d : Demand) (negative : Bool) (cs : List Char) : Option (Json × List Char) := do
  let run := cs.takeWhile Char.isDigit
  let whole := if run.head? = some '0' then ['0'] else run
  if whole = [] then none
  else
    let (fraction, rest) ← readFraction? (cs.drop whole.length)
    let (exponent, rest) ← readExponent? rest
    let j := match fraction, exponent with
      | [], none => ofWhole negative (Decimal.digitsValue whole)
      | _, _ => float (Decimal.toNumber
          ⟨negative, Decimal.digitsValue (whole ++ fraction), exponent.getD 0 - fraction.length⟩)
    let j ← bounded? d j
    pure (j, rest)

def readNumber? (d : Demand) : List Char → Option (Json × List Char)
  | '-' :: cs => readUnsigned? d true cs
  | cs => readUnsigned? d false cs

mutual

/-- A value at the front, and what follows it. `fuel` bounds the number of steps. -/
def readValue? (d : Demand) (fuel : Nat) (cs : List Char) : Option (Json × List Char) :=
  match fuel with
  | 0 => none
  | fuel + 1 =>
    match cs with
    | 'n' :: 'u' :: 'l' :: 'l' :: cs => some (null, cs)
    | 't' :: 'r' :: 'u' :: 'e' :: cs => some (bool true, cs)
    | 'f' :: 'a' :: 'l' :: 's' :: 'e' :: cs => some (bool false, cs)
    | '"' :: cs => (readStringChars d cs).map fun p => (string (String.ofList p.1), p.2)
    | '[' :: cs =>
      match skipSpace cs with
      | ']' :: cs => some (array [], cs)
      | cs => (readItems? d.ofItems fuel cs).map fun p => (array p.1, p.2)
    | '\x7b' :: cs =>
      match skipSpace cs with
      | '\x7d' :: cs => some (object [], cs)
      | cs => (readMembers? d fuel cs).map fun p => (object p.1, p.2)
    | cs => readNumber? d cs

/-- The items of an array from the first one on, and what follows the closing bracket. -/
def readItems? (d : Demand) (fuel : Nat) (cs : List Char) : Option (List Json × List Char) :=
  match fuel with
  | 0 => none
  | fuel + 1 =>
    match readValue? d fuel (skipSpace cs) with
    | none => none
    | some (j, cs) =>
      match skipSpace cs with
      | ']' :: cs => some ([j], cs)
      | ',' :: cs => (readItems? d fuel cs).map fun p => (j :: p.1, p.2)
      | _ => none

/-- The members of an object from the first one on, and what follows the closing brace. -/
def readMembers? (d : Demand) (fuel : Nat) (cs : List Char) :
    Option (List (String × Json) × List Char) :=
  match fuel with
  | 0 => none
  | fuel + 1 =>
    match skipSpace cs with
    | '"' :: cs =>
      match readStringChars d cs with
      | none => none
      | some (key, cs) =>
        match skipSpace cs with
        | ':' :: cs =>
          match readValue? (d.ofMember (String.ofList key)) fuel (skipSpace cs) with
          | none => none
          | some (j, cs) =>
            match skipSpace cs with
            | '\x7d' :: cs => some ([(String.ofList key, j)], cs)
            | ',' :: cs =>
              (readMembers? d fuel cs).map fun p => ((String.ofList key, j) :: p.1, p.2)
            | _ => none
        | _ => none
    | _ => none

end

/-- A value that fills the text. Every step takes at least one character, so the fuel lasts. -/
def readText? (d : Demand) (s : String) : Option Json :=
  let cs := s.toList
  match readValue? d (2 * cs.length + 2) (skipSpace cs) with
  | some (j, rest) => if skipSpace rest = [] then some j else none
  | none => none

def ofText? (s : String) : Option Json := readText? .all s

/-- A record of which only the named fields are asked for. -/
def ofRecordText? (names : List String) (s : String) : Option Json := readText? (.members names) s

end EntityQuery.Json
