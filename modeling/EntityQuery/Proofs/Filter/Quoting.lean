import EntityQuery.Filter.ParseState
import EntityQuery.Proofs.Filter.Relexing
import EntityQuery.Proofs.Sql.Escaping

/-!
# What can be quoted

Between its quotes a quoted text stands for another one, character by character (`Escaped`). Every
text has a way to be written so, line feeds and backslashes included, and `Text.quote` finds the
shortest one; wherever it stands, it is cut as one lexeme, which is read as that text again
(`Literal.quoting`).
-/

namespace EntityQuery

open Sql (guardChar guardChar_append)
open Text (Pattern)

/-- The characters between quotes stand for a text: each for itself, or with a backslash in front,
which a quote and a backslash must have and a line feed must not have. -/
inductive Escaped : List Char → List Char → Prop where
  | nil : Escaped [] []
  | plain {c : Char} {u v : List Char} (hquote : c ≠ '\'') (hslash : c ≠ '\\') (h : Escaped u v) :
      Escaped (c :: u) (c :: v)
  | pair {c : Char} {u v : List Char} (hc : c ≠ '\n') (h : Escaped u v) :
      Escaped ('\\' :: c :: u) (c :: v)

namespace Escaped

theorem unescape_eq {u v : List Char} (h : Escaped u v) : Text.unescape u = v := by
  induction h with
  | nil => rfl
  | pair hc h ih => rw [Text.unescape, ih]
  | @plain c u v hquote hslash h ih =>
    have hkeep : Text.unescape (c :: u) = c :: Text.unescape u := by
      rw [Text.unescape]
      · rintro _ _ rfl -
        exact hslash rfl
      · rintro rfl -
        exact hslash rfl
    rw [hkeep, ih]

/-- Only what needs a backslash gets one from `escapeQuotes`. -/
theorem length_le {u v : List Char} (h : Escaped u v) :
    (Text.escapeQuotes v).length ≤ u.length := by
  induction h with
  | nil => exact Nat.le_refl 0
  | plain hquote hslash h ih =>
    rw [Text.escapeQuotes, if_neg (not_or.2 ⟨hslash, hquote⟩)]
    exact Nat.succ_le_succ ih
  | pair hc h ih =>
    rw [Text.escapeQuotes]
    split
    · exact Nat.succ_le_succ (Nat.succ_le_succ ih)
    · exact Nat.le_succ_of_le (Nat.succ_le_succ ih)

end Escaped

namespace Lexeme

/-- What the class of quoted texts has between quotes always stands for a text. -/
theorem matches_items_iff {u : List Char} :
    Pattern.Matches (.star quotedItem) u ↔ ∃ v, Escaped u v := by
  constructor
  · intro h
    generalize hs : Pattern.star quotedItem = s at h
    induction h with
    | stop => exact ⟨[], .nil⟩
    | @more a x u hx _ _ ih =>
      cases hs
      obtain ⟨v, hv⟩ := ih rfl
      rcases matches_quotedItem.1 hx with ⟨c, rfl, hquote, hslash⟩ | ⟨c, rfl, hc⟩
      · exact ⟨c :: v, .plain hquote hslash hv⟩
      · exact ⟨c :: v, .pair hc hv⟩
    | _ => cases hs
  · rintro ⟨v, h⟩
    induction h with
    | nil => exact .stop
    | @plain c u v hquote hslash h ih =>
      exact .more (u := [c]) (matches_quotedItem.2 (.inl ⟨c, rfl, hquote, hslash⟩)) ih
    | @pair c u v hc h ih =>
      exact .more (u := ['\\', c]) (matches_quotedItem.2 (.inr ⟨c, rfl, hc⟩)) ih

end Lexeme

open Lexeme

/-- Whatever stands behind it, a quoted text is cut as one lexeme. -/
theorem Cut.ofChars_quoted {w : List Char} (hw : Pattern.Matches quotedPattern w) (start : Nat)
    (rest : List Char) :
    ofChars start (w ++ rest) =
      (ofChars (start + Text.utf8Length w) rest).cons ⟨.quoted, w, start⟩ :=
  ofChars_append (whole_quoted hw).head (front?_quoted hw rest) rfl

/-- The text is one quoted lexeme, alone and with a blank and any text behind it. -/
structure CutAsQuoted (t : String) : Prop where
  alone : Cut.ofText t = ⟨[⟨.quoted, t.toList, 0⟩], none⟩
  followed : ∀ rest : String, Cut.ofText (t ++ " " ++ rest) =
    (Cut.ofChars (Text.utf8Length t.toList + 1) rest.toList).cons ⟨.quoted, t.toList, 0⟩

theorem cutAsQuoted {t : String} (ht : Pattern.Matches quotedPattern t.toList) :
    CutAsQuoted t where
  alone := by
    have halone := Cut.ofChars_quoted ht 0 []
    rwa [List.append_nil, Cut.ofChars.eq_def _ []] at halone
  followed rest := by
    have hspace : (t ++ " " ++ rest).toList = t.toList ++ ' ' :: rest.toList := by
      rw [String.toList_append, String.toList_append, List.append_assoc]
      rfl
    have hblank : Text.isBlank ' ' = true := by decide
    rw [Cut.ofText, hspace, Cut.ofChars_quoted ht, Nat.zero_add, Cut.ofChars_blank hblank]
    rfl

namespace Text

/-- Escaping is two replacements, of backslashes first: those that come with the quotes stay as
they are. -/
theorem escapeQuotes_eq_guardChar (cs : List Char) :
    escapeQuotes cs = guardChar '\'' (guardChar '\\' cs) := by
  induction cs with
  | nil => rfl
  | cons c cs ih =>
    have hfirst : guardChar '\'' (guardChar '\\' [c]) = escapeQuotes [c] := by
      by_cases hslash : c = '\\'
      · subst c
        decide
      by_cases hquote : c = '\''
      · subst c
        decide
      · simp [guardChar, escapeQuotes, hslash, hquote]
    have hcons : escapeQuotes (c :: cs) = escapeQuotes [c] ++ escapeQuotes cs := by
      simp only [escapeQuotes]
      split <;> rfl
    rw [hcons, ih, ← hfirst, ← guardChar_append, ← guardChar_append, List.singleton_append]

theorem escaped_of_matches_quoted {w : String} (hw : Pattern.Matches quotedPattern w.toList) :
    ∃ u, w.toList = '\'' :: (u ++ ['\'']) ∧ Escaped u (unquote w).toList := by
  obtain ⟨u, hu, hitems⟩ := matches_quotedPattern.1 hw
  obtain ⟨v, hv⟩ := matches_items_iff.1 hitems
  refine ⟨u, hu, ?_⟩
  have hinner : stripQuotes w.toList = u := by
    rw [hu]
    exact stripQuotes_quoted u
  rwa [unquote, String.toList_ofList, hinner, hv.unescape_eq]

theorem length_quote_unquote_le {w : String} (hw : Pattern.Matches quotedPattern w.toList) :
    (quote (unquote w)).length ≤ w.length := by
  obtain ⟨u, hu, hescaped⟩ := escaped_of_matches_quoted hw
  have hle := hescaped.length_le
  rw [← String.length_toList, ← String.length_toList, hu, quote, String.toList_ofList]
  simp only [List.length_append, List.length_cons, List.length_nil]
  omega

end Text

namespace Literal

theorem matches_display (s : String) :
    Pattern.Matches quotedPattern (Literal.mk s .string).display.toList := matches_quote s

theorem unquote_display (s : String) : Text.unquote (Literal.mk s .string).display = s :=
  Text.unquote_quote s

/-- Every text can be written as a literal: what is displayed, with backslashes and quotes replaced,
is one lexeme, alone and with a blank and any text behind it, and it is read as that literal. A
quoted text that is written in another way stands for a text too; its display is read as the same
text and is no longer. -/
theorem quoting :
    (∀ s : String, (Literal.mk s .string).display.toList =
        '\'' :: guardChar '\'' (guardChar '\\' s.toList) ++ ['\''] ∧
      CutAsQuoted (Literal.mk s .string).display ∧
      Text.unquote (Literal.mk s .string).display = s ∧
      Clause.literal? ⟨.quoted, (Literal.mk s .string).display.toList, 0⟩ = some ⟨s, .string⟩) ∧
    ∀ w : String, Pattern.Matches quotedPattern w.toList →
      (∃ u, w.toList = '\'' :: (u ++ ['\'']) ∧ Escaped u (Text.unquote w).toList) ∧
      Text.unquote (Literal.mk (Text.unquote w) .string).display = Text.unquote w ∧
      (Literal.mk (Text.unquote w) .string).display.length ≤ w.length := by
  refine ⟨fun s => ⟨?_, cutAsQuoted (matches_display s), unquote_display s, ?_⟩, fun w hw =>
    ⟨Text.escaped_of_matches_quoted hw, unquote_display _, Text.length_quote_unquote_le hw⟩⟩
  · rw [display, Text.quote, String.toList_ofList, Text.escapeQuotes_eq_guardChar]
  · rw [Clause.literal?, String.ofList_toList, unquote_display]

/-- A letter with a backslash that it does not need, and a quote that needs one. -/
def needlessEscape : String := "'\\a\\'b'"

theorem quoting_needlessEscape :
    Pattern.Matches quotedPattern needlessEscape.toList ∧ Text.unquote needlessEscape = "a'b" ∧
      Text.unquote (Literal.mk "a'b" .string).display = "a'b" ∧
      (Literal.mk "a'b" .string).display.length ≤ needlessEscape.length ∧
      (Literal.mk "a'b" .string).display = "'a\\'b'" := by
  have hitems : Escaped ['\\', 'a', '\\', '\'', 'b'] ['a', '\'', 'b'] :=
    .pair (by decide) (.pair (by decide) (.plain (by decide) (by decide) .nil))
  have hquoted : Pattern.Matches quotedPattern needlessEscape.toList :=
    matches_quotedPattern.2 ⟨_, rfl, matches_items_iff.2 ⟨_, hitems⟩⟩
  have hvalue : Text.unquote needlessEscape = "a'b" := by decide
  obtain ⟨-, hread, hshort⟩ := quoting.2 needlessEscape hquoted
  rw [hvalue] at hread hshort
  exact ⟨hquoted, hvalue, hread, hshort, by decide⟩

end Literal

end EntityQuery
