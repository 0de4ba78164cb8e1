/-!
# Text patterns of document filters

A pattern is found in a text when it matches some part of it. The patterns that binding a filter
writes are sequences of characters with an anchor at one end or none: a backslash takes the meaning
from a punctuation mark, and `escapePattern` puts one in front of every character that has a
meaning, so that a text is found as it is (`ofChars?_escape`).

This is not the whole language of regular expressions. Beside characters and anchors only the dot,
for any character but a line feed, and the escapes of line feed, carriage return and tab are read.
Repetition, classes, alternation, groups, flags, word boundaries and escapes by code point are not,
and such a pattern is found nowhere: `patternFound` is false of `a+` and `aa`, where the regular
expression is found. What is said of `patternFound` beyond the patterns of bound filters is
therefore said of this part of the language only.
-/

namespace EntityQuery.Document

/-- What a pattern is made of, as far as patterns are read here. -/
inductive PatternItem where
  | char (c : Char)
  | anyChar
  | startOfText
  | endOfText
  deriving DecidableEq, Repr

namespace PatternItem

/-- Characters with a meaning in patterns. -/
def isMeta (c : Char) : Bool :=
  ['\\', '.', '+', '*', '?', '(', ')', '|', '[', ']', '\x7b', '\x7d', '^', '$', '#', '&', '-',
    '~'].contains c

/-- Characters that may stand behind a backslash for themselves. -/
def isEscapable (c : Char) : Bool :=
  isMeta c || (c.toNat < 128 && !c.isAlphanum && c != '<' && c != '>')

/-- Those of the characters with a meaning that may stand for themselves without a backslash. -/
def standsAlone (c : Char) : Bool := !isMeta c || [']', '\x7d', '#', '&', '-', '~'].contains c

/-- What a letter behind a backslash stands for. -/
def named? : Char → Option PatternItem
  | 'A' => some startOfText
  | 'z' => some endOfText
  | 'n' => some (char '\n')
  | 'r' => some (char '\r')
  | 't' => some (char '\t')
  | _ => none

/-- What a character behind a backslash stands for. -/
def escaped? (c : Char) : Option PatternItem := if isEscapable c then some (char c) else named? c

/-- What a character without a backslash stands for. -/
def plain? : Char → Option PatternItem
  | '.' => some anyChar
  | '^' => some startOfText
  | '$' => some endOfText
  | c => if standsAlone c then some (char c) else none

def ofChars? : List Char → Option (List PatternItem)
  | [] => some []
  | '\\' :: c :: cs => (escaped? c).bind fun i => (ofChars? cs).map (i :: ·)
  | c :: cs => (plain? c).bind fun i => (ofChars? cs).map (i :: ·)

/-- Does a sequence match at a place, with `before` telling that characters stand in front? -/
def matchesAt (before : Bool) : List PatternItem → List Char → Bool
  | [], _ => true
  | startOfText :: is, cs => !before && matchesAt before is cs
  | endOfText :: is, cs => cs.isEmpty && matchesAt before is cs
  | char c :: is, d :: cs => c == d && matchesAt true is cs
  | anyChar :: is, d :: cs => d != '\n' && matchesAt true is cs
  | char _ :: _, [] | anyChar :: _, [] => false

/-- Does a sequence match at this place or at a later one? -/
def found (items : List PatternItem) (before : Bool) : List Char → Bool
  | [] => matchesAt before items []
  | c :: cs => matchesAt before items (c :: cs) || found items true cs

end PatternItem

/-- Is a pattern found in a text? One that is not read here is not found. -/
def patternFound (pattern text : String) : Bool :=
  match PatternItem.ofChars? pattern.toList with
  | some items => PatternItem.found items false text.toList
  | none => false

def escapeChars (cs : List Char) : List Char :=
  cs.flatMap fun c => if PatternItem.isMeta c then ['\\', c] else [c]

/-- The pattern of the texts in which a text occurs. -/
def escapePattern (s : String) : String := String.ofList (escapeChars s.toList)

/-- Reading an escaped text finds its characters. -/
theorem ofChars?_escape (cs rest : List Char) :
    PatternItem.ofChars? (escapeChars cs ++ rest) =
      (PatternItem.ofChars? rest).map (cs.map .char ++ ·) := by
  induction cs with
  | nil => simp [escapeChars]
  | cons c cs ih =>
    simp only [escapeChars, List.flatMap_cons] at ih ⊢
    by_cases h : PatternItem.isMeta c = true
    · simp [h, PatternItem.ofChars?, PatternItem.escaped?, PatternItem.isEscapable, ih,
        Function.comp_def]
    · have hb : c ≠ '\\' := by rintro rfl; exact h rfl
      have h1 : c ≠ '.' := by rintro rfl; exact h rfl
      have h2 : c ≠ '^' := by rintro rfl; exact h rfl
      have h3 : c ≠ '$' := by rintro rfl; exact h rfl
      have hp : PatternItem.plain? c = some (.char c) := by
        simp [PatternItem.plain?, PatternItem.standsAlone, h]
      simp only [h, Bool.false_eq_true, if_false, List.cons_append, List.nil_append, List.map_cons]
      rw [PatternItem.ofChars?]
      · simp [hp, ih, Function.comp_def]
      · exact fun _ _ e => absurd e hb

end EntityQuery.Document
