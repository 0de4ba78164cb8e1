import EntityQuery.Text.Hex

/-!
# GUIDs

A GUID is 128 bits, ordered as a number. Its text is 32 hexadecimal digits in groups of 8, 4, 4, 4
and 12; it is read in this form, in braces or behind `urn:uuid:`, or without the hyphens.
-/

namespace EntityQuery

structure Guid where
  bits : BitVec 128
  deriving DecidableEq

namespace Guid

/-- The GUID of zeros. -/
def nil : Guid := ⟨BitVec.zero 128⟩

def compare (a b : Guid) : Ordering := Ord.compare a.bits.toNat b.bits.toNat

/-- The number that hexadecimal digits stand for. -/
def digitsValue? (cs : List Char) : Option Nat :=
  cs.foldlM (fun n c => (Text.hexValue? c).map (16 * n + ·)) 0

def ofDigits? (cs : List Char) : Option Guid :=
  if cs.length = 32 then (digitsValue? cs).map fun n => ⟨BitVec.ofNat 128 n⟩ else none

/-- The digits between hyphens at their places. -/
def withoutHyphens? (cs : List Char) : Option (List Char) :=
  if cs.length = 36 ∧ [8, 13, 18, 23].all (fun i => cs[i]? == some '-') then
    some (cs.take 8 ++ (cs.drop 9).take 4 ++ (cs.drop 14).take 4 ++ (cs.drop 19).take 4 ++
      cs.drop 24)
  else none

/-- The hyphenated form inside braces or behind its scheme, in any case, if it is wrapped so. -/
def unwrap (cs : List Char) : List Char :=
  if cs.length = 38 ∧ cs.head? = some '\x7b' ∧ cs.getLast? = some '\x7d' then
    (cs.drop 1).dropLast
  else if cs.length = 45 ∧ (cs.take 9).map Char.toLower = "urn:uuid:".toList then cs.drop 9
  else cs

def read? (s : String) : Option Guid :=
  let cs := s.toList
  if cs.length = 32 then ofDigits? cs else (withoutHyphens? (unwrap cs)).bind ofDigits?

/-- All 32 digits, in lower case. -/
def digits (g : Guid) : List Char := Text.hexDigits 32 g.bits.toNat

def chars (g : Guid) : List Char :=
  let ds := g.digits
  ds.take 8 ++ '-' :: (ds.drop 8).take 4 ++ '-' :: (ds.drop 12).take 4 ++
    '-' :: (ds.drop 16).take 4 ++ '-' :: ds.drop 20

def text (g : Guid) : String := String.ofList g.chars

end Guid

end EntityQuery
