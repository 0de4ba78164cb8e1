import EntityQuery.Document.TextPattern
import EntityQuery.Predicate.Basic

/-!
# Escaped patterns and tests of texts

An escaped text is found exactly where it occurs: anywhere, behind an anchor only at the start of
the text, and in front of one only at its end.
-/

namespace EntityQuery.Document

namespace PatternItem

theorem matchesAt_chars (before : Bool) (needle text : List Char) :
    matchesAt before (needle.map .char) text = needle.isPrefixOf text := by
  induction needle generalizing before text with
  | nil => simp [matchesAt]
  | cons c needle ih =>
    cases text with
    | nil => rfl
    | cons d text => simp [matchesAt, ih, List.isPrefixOf]

theorem found_chars (before : Bool) (needle text : List Char) :
    found (needle.map .char) before text = TextTest.occurs needle text := by
  induction text generalizing before with
  | nil => cases needle <;> rfl
  | cons d text ih => simp only [found, TextTest.occurs, matchesAt_chars, ih]

theorem found_startOfText (items : List PatternItem) (text : List Char) :
    found (.startOfText :: items) true text = false := by
  induction text with
  | nil => simp [found, matchesAt]
  | cons d text ih => simp [found, matchesAt, ih]

/-- An anchor at the front is passed only at the start of the text. -/
theorem found_startOfText_chars (needle text : List Char) :
    found (.startOfText :: needle.map .char) false text = needle.isPrefixOf text := by
  cases text with
  | nil => simp [found, matchesAt, matchesAt_chars]
  | cons d text => simp [found, matchesAt, matchesAt_chars, found_startOfText]

theorem matchesAt_chars_endOfText (before : Bool) (needle text : List Char) :
    matchesAt before (needle.map .char ++ [.endOfText]) text = decide (needle = text) := by
  induction needle generalizing before text with
  | nil => cases text <;> simp [matchesAt]
  | cons c needle ih =>
    cases text with
    | nil => simp [matchesAt]
    | cons d text =>
      simp only [List.map_cons, List.cons_append, matchesAt, ih, List.cons.injEq]
      by_cases h : c = d <;> simp [h]

/-- An anchor at the back is passed only at the end of the text. -/
theorem found_chars_endOfText (before : Bool) (needle text : List Char) :
    found (needle.map .char ++ [.endOfText]) before text = needle.isSuffixOf text := by
  induction text generalizing before with
  | nil =>
    rw [found, matchesAt_chars_endOfText, Bool.eq_iff_iff, List.isSuffixOf_iff_suffix]
    simp
  | cons d text ih =>
    rw [found, matchesAt_chars_endOfText, ih, Bool.eq_iff_iff, List.isSuffixOf_iff_suffix,
      List.suffix_cons_iff]
    simp

end PatternItem

open PatternItem

theorem ofChars?_escapePattern (needle : String) :
    ofChars? (escapePattern needle).toList = some (needle.toList.map .char) := by
  have h := ofChars?_escape needle.toList []
  simp only [List.append_nil, ofChars?, Option.map_some] at h
  rw [escapePattern, String.toList_ofList, h]

/-- The pattern for texts with a needle somewhere. -/
theorem patternFound_contains (needle text : String) :
    patternFound (escapePattern needle) text = TextTest.contains.holds text needle := by
  simp only [patternFound, ofChars?_escapePattern, found_chars, TextTest.holds]

/-- The pattern for texts with a needle at the start. -/
theorem patternFound_startsWith (needle text : String) :
    patternFound ("\\A" ++ escapePattern needle) text = TextTest.startsWith.holds text needle := by
  have hread : ofChars? ("\\A" ++ escapePattern needle).toList =
      some (.startOfText :: needle.toList.map .char) := by
    rw [String.toList_append]
    show ofChars? ('\\' :: 'A' :: (escapePattern needle).toList) = _
    rw [ofChars?, ofChars?_escapePattern]
    rfl
  simp only [patternFound, hread, found_startOfText_chars, TextTest.holds]

/-- The pattern for texts with a needle at the end. -/
theorem patternFound_endsWith (needle text : String) :
    patternFound (escapePattern needle ++ "\\z") text = TextTest.endsWith.holds text needle := by
  have hread : ofChars? (escapePattern needle ++ "\\z").toList =
      some (needle.toList.map .char ++ [.endOfText]) := by
    rw [String.toList_append, escapePattern, String.toList_ofList, ofChars?_escape]
    rfl
  simp only [patternFound, hread, found_chars_endOfText, TextTest.holds]

end EntityQuery.Document
