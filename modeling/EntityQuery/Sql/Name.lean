import EntityQuery.Text.Case

/-!
# SQL names

The table of an entity and the column of a field are their names in snake case, for a table in the
plural. A name that is not made of lower-case letters, digits and underscores is written in
double quotes.
-/

namespace EntityQuery.Sql

/-- Snake case of `cs` after the character `before`. An underscore goes in front of a capital
that follows a small letter or a digit, so that acronyms stay whole. -/
def snakeChars (before : Option Char) : List Char → List Char
  | [] => []
  | c :: cs =>
    let breaks := before.any fun p => Text.isLower p || p.isDigit
    (if Text.isUpper c then (if breaks then ['_'] else []) ++ Text.lowerChar c else [c]) ++
      snakeChars (some c) cs

def snakeCase (name : String) : String := String.ofList (snakeChars none name.toList)

/-- The English plural by the last letters. -/
def plural (cs : List Char) : List Char :=
  match cs.reverse with
  | 'y' :: stem =>
    if stem.head?.any (['a', 'e', 'i', 'o', 'u'].contains ·) then cs ++ ['s']
    else stem.reverse ++ ['i', 'e', 's']
  | 's' :: _ | 'x' :: _ | 'h' :: 's' :: _ | 'h' :: 'c' :: _ => cs ++ ['e', 's']
  | _ => cs ++ ['s']

def tableName (entity : String) : String :=
  String.ofList (plural (snakeChars none entity.toList))

/-- May a name stand without quotes? -/
def isPlain (cs : List Char) : Bool :=
  cs != [] && cs.all fun c => c.isLower || c.isDigit || c == '_'

/-- The characters with each double quote written twice. -/
def doubleQuotes : List Char → List Char
  | [] => []
  | c :: cs => if c = '"' then '"' :: '"' :: doubleQuotes cs else c :: doubleQuotes cs

def quoteName (name : String) : String :=
  if isPlain name.toList then name
  else String.ofList ('"' :: doubleQuotes name.toList ++ ['"'])

end EntityQuery.Sql
