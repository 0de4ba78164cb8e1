import EntityQuery.Filter.Operator
import EntityQuery.Text.Blank
import EntityQuery.Text.Pattern

/-!
# Lexemes

The text of a filter is cut into lexemes. Each one is the longest piece at its place that some
class of lexemes matches; of classes that match equally far the one that stands first in
`lexemeClasses` has it, so that a keyword is not a name. Letters of keywords match in either case.
Blanks between lexemes are skipped. A cut stops where no class matches.
-/

namespace EntityQuery

/-- The kinds of lexemes, in the order in which error texts list them. -/
inductive Terminal where
  | compare (c : Comparison)
  | leftParen
  | rightParen
  | comma
  | contains
  | endsWith
  | startsWith
  | andWord
  | betweenWord
  | falseWord
  | inWord
  | isWord
  | notWord
  | nullWord
  | orWord
  | trueWord
  | dateTime
  | guid
  | name
  | number
  | quoted
  deriving DecidableEq, Repr

namespace Terminal

def every : List Terminal :=
  [compare .ne, leftParen, rightParen, comma, compare .lt, compare .le, compare .eq, compare .gt,
   compare .ge, contains, endsWith, startsWith, andWord, betweenWord, falseWord, inWord, isWord,
   notWord, nullWord, orWord, trueWord, dateTime, guid, name, number, quoted]

/-- What an error text calls it. -/
def description : Terminal → String
  | compare c => c.symbol
  | leftParen => "("
  | rightParen => ")"
  | comma => ","
  | contains => "@contains"
  | endsWith => "@endswith"
  | startsWith => "@startswith"
  | andWord => "and"
  | betweenWord => "between"
  | falseWord => "false"
  | inWord => "in"
  | isWord => "is"
  | notWord => "not"
  | nullWord => "null"
  | orWord => "or"
  | trueWord => "true"
  | dateTime => "a date-time"
  | guid => "a GUID"
  | name => "a field name"
  | number => "a number"
  | quoted => "a quoted string"

end Terminal

namespace Lexeme

open Text (Pattern)
open Text.Pattern (set char seq alt star all opt plus times)

/-- Equality of letters up to case, where the long s is an s and the Kelvin sign a k. -/
def sameLetter (a c : Char) : Bool :=
  a.toLower == c.toLower || (a.toLower == 's' && c == '\u017f') ||
    (a.toLower == 'k' && c == '\u212a')

/-- A word in any mixture of cases. -/
def keyword (w : String) : Pattern := all (w.toList.map fun a => set (sameLetter a))

def digit : Pattern := set Char.isDigit

def hexDigit : Pattern :=
  set fun c => c.isDigit || ('a' ≤ c && c ≤ 'f') || ('A' ≤ c && c ≤ 'F')

/-- A letter or an underscore, then these and digits. -/
def namePattern : Pattern :=
  seq (set fun c => c.isAlpha || c == '_') (star (set fun c => c.isAlphanum || c == '_'))

/-- `-12.5`, the sign and the fraction being optional. -/
def numberPattern : Pattern :=
  all [opt (char '-'), plus digit, opt (seq (char '.') (plus digit))]

/-- `Z` or a signed offset such as `+01:00`. -/
def zonePattern : Pattern :=
  alt (char 'Z') (all [set fun c => c == '+' || c == '-', times 2 digit, char ':', times 2 digit])

/-- `T10:15`, with seconds, a fraction of them and a zone optional. -/
def timePattern : Pattern :=
  all [char 'T', times 2 digit, char ':', times 2 digit,
    opt (all [char ':', times 2 digit, opt (seq (char '.') (plus digit))]), opt zonePattern]

/-- `2024-01-31`, alone or with a time. -/
def dateTimePattern : Pattern :=
  all [times 4 digit, char '-', times 2 digit, char '-', times 2 digit, opt timePattern]

def guidPattern : Pattern :=
  all [times 8 hexDigit, char '-', times 4 hexDigit, char '-', times 4 hexDigit, char '-',
    times 4 hexDigit, char '-', times 12 hexDigit]

/-- Single quotes around characters other than quotes and backslashes, and around pairs of a
backslash and any character but a line feed. -/
def quotedPattern : Pattern :=
  all [char '\'',
    star (alt (set fun c => c != '\'' && c != '\\') (seq (char '\\') (set (· != '\n')))),
    char '\'']

end Lexeme

open Lexeme in
/-- The classes of lexemes, those that win ties first. -/
def lexemeClasses : List (Terminal × Text.Pattern) :=
  [(.andWord, keyword "and"), (.orWord, keyword "or"), (.notWord, keyword "not"),
   (.inWord, keyword "in"), (.isWord, keyword "is"), (.nullWord, keyword "null"),
   (.betweenWord, keyword "between"), (.trueWord, keyword "true"), (.falseWord, keyword "false"),
   (.contains, keyword "@contains"), (.startsWith, keyword "@startswith"),
   (.endsWith, keyword "@endswith"), (.name, namePattern), (.number, numberPattern),
   (.dateTime, dateTimePattern), (.guid, guidPattern), (.quoted, quotedPattern),
   (.compare .eq, keyword "=="), (.compare .ne, keyword "!="), (.compare .gt, keyword ">"),
   (.compare .ge, keyword ">="), (.compare .lt, keyword "<"), (.compare .le, keyword "<="),
   (.leftParen, keyword "("), (.rightParen, keyword ")"), (.comma, keyword ",")]

/-- A piece of a filter text, with its class and its first byte. -/
structure Lexeme where
  terminal : Terminal
  text : List Char
  start : Nat
  deriving DecidableEq, Repr

namespace Lexeme

/-- The byte after the last one. -/
def stop (l : Lexeme) : Nat := l.start + Text.utf8Length l.text

/-- The longer of two matches, the first if they are equally long. -/
def better (a b : Option (Terminal × Nat)) : Option (Terminal × Nat) :=
  match a, b with
  | some m, some n => if m.2 < n.2 then b else a
  | none, _ => b
  | _, none => a

/-- A match of a class at the front that takes at least one character. -/
def candidate? (cs : List Char) (c : Terminal × Text.Pattern) : Option (Terminal × Nat) :=
  match c.2.longest? cs with
  | some (n + 1) => some (c.1, n + 1)
  | _ => none

/-- The class and the length of the lexeme at the front, if there is one. -/
def front? (cs : List Char) : Option (Terminal × Nat) :=
  lexemeClasses.foldl (fun best c => better best (candidate? cs c)) none

theorem candidate?_pos {cs : List Char} {c : Terminal × Text.Pattern} {m : Terminal × Nat}
    (h : candidate? cs c = some m) : 0 < m.2 := by
  unfold candidate? at h
  split at h
  · simp at h; simp [← h]
  · simp at h

theorem better_eq (a b : Option (Terminal × Nat)) : better a b = a ∨ better a b = b := by
  unfold better
  split
  · split <;> simp
  · exact .inr rfl
  · exact .inl rfl

theorem foldl_better_pos (cs : List Char) (classes : List (Terminal × Text.Pattern))
    (best : Option (Terminal × Nat)) (hbest : ∀ m ∈ best, 0 < m.2) :
    ∀ m ∈ classes.foldl (fun best c => better best (candidate? cs c)) best, 0 < m.2 := by
  induction classes generalizing best with
  | nil => exact hbest
  | cons c classes ih =>
    refine ih _ fun m hm => ?_
    have hm : better best (candidate? cs c) = some m := hm
    rcases better_eq best (candidate? cs c) with h | h
    · exact hbest m (h ▸ hm)
    · exact candidate?_pos (h ▸ hm)

/-- A lexeme takes at least one character. -/
theorem front?_pos {cs : List Char} {t : Terminal} {n : Nat} (h : front? cs = some (t, n)) :
    0 < n :=
  foldl_better_pos cs lexemeClasses none (by simp) (t, n) h

end Lexeme

/-- A text cut into lexemes, and the place where the cut stopped, if it did before the end. -/
structure Cut where
  lexemes : List Lexeme
  stuck : Option (Nat × List Char)
  deriving DecidableEq, Repr

namespace Cut

theorem length_drop_lt {cs : List Char} {n : Nat} (h : 0 < n) (hcs : cs ≠ []) :
    (cs.drop n).length < cs.length := by
  have := List.length_pos_iff.2 hcs
  simp; omega

/-- The cut of what is left from byte `start` on. -/
def ofChars (start : Nat) (cs : List Char) : Cut :=
  match cs with
  | [] => ⟨[], none⟩
  | c :: rest =>
    if Text.isBlank c then ofChars (start + c.utf8Size) rest
    else match _h : Lexeme.front? (c :: rest) with
      | none => ⟨[], some (start, c :: rest)⟩
      | some (t, n) =>
        let l : Lexeme := ⟨t, (c :: rest).take n, start⟩
        let after := ofChars l.stop ((c :: rest).drop n)
        ⟨l :: after.lexemes, after.stuck⟩
  termination_by cs.length
  decreasing_by
    · simp
    · exact length_drop_lt (Lexeme.front?_pos ‹_›) (by simp)

def ofText (s : String) : Cut := ofChars 0 s.toList

end Cut

end EntityQuery
