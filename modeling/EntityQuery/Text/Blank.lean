/-!
# Blank characters

The blank characters are those of the Unicode property White_Space. Texts are trimmed of them at
both ends, and a word is a maximal run without them.
-/

namespace EntityQuery.Text

/-- Closed ranges of code points, ascending and apart. -/
abbrev Ranges := List (Nat × Nat)

def Ranges.mem (rs : Ranges) (n : Nat) : Bool :=
  rs.any fun r => r.1 ≤ n && n ≤ r.2

def blankRanges : Ranges :=
  [(0x09, 0x0D), (0x20, 0x20), (0x85, 0x85), (0xA0, 0xA0), (0x1680, 0x1680), (0x2000, 0x200A),
   (0x2028, 0x2029), (0x202F, 0x202F), (0x205F, 0x205F), (0x3000, 0x3000)]

def isBlank (c : Char) : Bool := blankRanges.mem c.toNat

/-- The characters that are left once the blanks in front are gone. -/
def dropBlank (cs : List Char) : List Char := cs.dropWhile isBlank

/-- The leading run of characters that are not blank. -/
def word (cs : List Char) : List Char := cs.takeWhile fun c => !isBlank c

/-- A text without the blanks at its two ends. -/
def trimChars (cs : List Char) : List Char := (dropBlank (dropBlank cs).reverse).reverse

def trim (s : String) : String := String.ofList (trimChars s.toList)

/-- Is there no character but blanks? -/
def isBlankText (s : String) : Bool := s.toList.all isBlank

/-- The number of bytes of the UTF-8 form. -/
def utf8Length : List Char → Nat
  | [] => 0
  | c :: cs => c.utf8Size + utf8Length cs

/-- The pieces of a text between separators. -/
def splitOnChar (sep : Char) : List Char → List (List Char)
  | [] => [[]]
  | c :: cs =>
    if c = sep then [] :: splitOnChar sep cs
    else match splitOnChar sep cs with
      | [] => [[c]]
      | p :: ps => (c :: p) :: ps

/-- The pieces of a text between commas, each trimmed; those that trim to nothing are left out. -/
def commaParts (s : String) : List String :=
  ((splitOnChar ',' s.toList).map fun p => String.ofList (trimChars p)).filter fun p => p ≠ ""

end EntityQuery.Text
