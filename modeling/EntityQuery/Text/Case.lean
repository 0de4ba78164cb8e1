import EntityQuery.Text.CaseTable

/-!
# Letter case

Names are compared by their lower-case form, `lower`. A character is lowered by itself
(`lowerChar`), with two rules beyond one-to-one: a capital I with a dot becomes an i and a
combining dot, and a capital sigma at the end of a word becomes the final sigma. Below 128 the
rules are those of the letters A to Z (`lowerChar_of_ascii`).
-/

namespace EntityQuery.Text

def isUpper (c : Char) : Bool :=
  if c.toNat < 128 then c.isUpper else upperRuns.any (·.mem c.toNat)

def isLower (c : Char) : Bool :=
  if c.toNat < 128 then c.isLower else lowercaseRuns.any (·.mem c.toNat)

/-- Letters that have a case: upper, lower or title. -/
def isCased (c : Char) : Bool := isUpper c || isLower c || titleRanges.mem c.toNat

/-- The lower-case form of one character, whatever stands around it. -/
def lowerChar (c : Char) : List Char :=
  if c.toNat < 128 then [c.toLower]
  else if c = '\u0130' then ['i', '\u0307']
  else match lowerRuns.find? (·.1.mem c.toNat) with
    | some (_, d) => [Char.ofNat (c.toNat + d).toNat]
    | none => [c]

/-- Does a cased letter come first, once ignorable characters are passed over? -/
def meetsCased (cs : List Char) : Bool :=
  match cs.dropWhile fun c => ignorableRanges.mem c.toNat with
  | c :: _ => isCased c
  | [] => false

/-- A sigma is final after a cased letter and not before one. -/
def sigma (before after : List Char) : Char :=
  if meetsCased before && !meetsCased after then '\u03c2' else '\u03c3'

/-- Lower case of `cs`, given the characters in front of it, nearest first. -/
def lowerAfter (before : List Char) : List Char → List Char
  | [] => []
  | c :: cs =>
    (if c = '\u03a3' then [sigma before cs] else lowerChar c) ++ lowerAfter (c :: before) cs

def lower (s : String) : String := String.ofList (lowerAfter [] s.toList)

/-- Equality up to the case of the letters A to Z. -/
def eqIgnoreAsciiCase (s t : String) : Bool :=
  s.toList.map Char.toLower == t.toList.map Char.toLower

/-! ## Characters below 128 -/

theorem lowerChar_of_ascii {c : Char} (h : c.toNat < 128) : lowerChar c = [c.toLower] := by
  simp [lowerChar, h]

end EntityQuery.Text
