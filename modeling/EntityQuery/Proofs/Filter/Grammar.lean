import EntityQuery.Filter.Lexeme
import EntityQuery.Filter.Node

/-!
# The grammar of filters

The productions of the filter language over tokens, each with the tree it builds, written without
regard to how a filter is read. `Derives` has one constructor for each production of the four
phrases that nest; below them stand the clauses (`ClauseTree`), which do not.
-/

namespace EntityQuery

/-- A lexeme without its place. -/
structure Token where
  terminal : Terminal
  text : List Char
  deriving DecidableEq, Repr

def Lexeme.token (l : Lexeme) : Token := ⟨l.terminal, l.text⟩

namespace Grammar

/-! ## Clauses -/

/-- The literal that a token stands for. -/
inductive Denotes : Token → Literal → Prop where
  | quoted (w : List Char) : Denotes ⟨.quoted, w⟩ ⟨Text.unquote (String.ofList w), .string⟩
  | number (w : List Char) : Denotes ⟨.number, w⟩ ⟨String.ofList w, .number⟩
  | dateTime (w : List Char) : Denotes ⟨.dateTime, w⟩ ⟨String.ofList w, .dateTime⟩
  | trueWord (w : List Char) : Denotes ⟨.trueWord, w⟩ ⟨"true", .boolean⟩
  | falseWord (w : List Char) : Denotes ⟨.falseWord, w⟩ ⟨"false", .boolean⟩
  | guid (w : List Char) : Denotes ⟨.guid, w⟩ ⟨String.ofList w, .identifier⟩
  | name (w : List Char) : Denotes ⟨.name, w⟩ ⟨String.ofList w, .identifier⟩

/-- One literal or more, with commas between them. -/
inductive Items : List Token → List Literal → Prop where
  | last {t : Token} {v : Literal} (h : Denotes t v) : Items [t] [v]
  | more {t : Token} {v : Literal} {c : List Char} {w : List Token} {vs : List Literal}
      (h : Denotes t v) (hs : Items w vs) : Items (t :: ⟨.comma, c⟩ :: w) (v :: vs)

/-- One literal, bare or in parentheses. -/
inductive OneArgument : List Token → Literal → Prop where
  | bare {t : Token} {v : Literal} (h : Denotes t v) : OneArgument [t] v
  | wrapped {t : Token} {v : Literal} {l r : List Char} (h : Denotes t v) :
      OneArgument [⟨.leftParen, l⟩, t, ⟨.rightParen, r⟩] v

/-- The operators that take one text. -/
inductive TextOperator : List Token → CallOp → Prop where
  | contains (k : List Char) : TextOperator [⟨.contains, k⟩] .contains
  | notContains (j k : List Char) : TextOperator [⟨.notWord, j⟩, ⟨.contains, k⟩] .notContains
  | startsWith (k : List Char) : TextOperator [⟨.startsWith, k⟩] .startsWith
  | endsWith (k : List Char) : TextOperator [⟨.endsWith, k⟩] .endsWith

/-- The operators that take a list. -/
inductive ListOperator : List Token → CallOp → Prop where
  | isIn (k : List Char) : ListOperator [⟨.inWord, k⟩] .isIn
  | notIn (j k : List Char) : ListOperator [⟨.notWord, j⟩, ⟨.inWord, k⟩] .notIn

/-- The tree of an operator that is called on a field. -/
def callTree (field : List Char) (op : CallOp) (vs : List Literal) : Node :=
  .mkCall op (.field (String.ofList field)) (vs.map .literal)

/-- A field with an operator and its literals. -/
inductive ClauseTree : List Token → Node → Prop where
  | comparison {t : Token} {v : Literal} (f k : List Char) (c : Comparison) (h : Denotes t v) :
      ClauseTree [⟨.name, f⟩, ⟨.compare c, k⟩, t]
        (.mkBinary (.compare c) (.field (String.ofList f)) (.literal v))
  | text {o a : List Token} {op : CallOp} {v : Literal} (f : List Char) (ho : TextOperator o op)
      (ha : OneArgument a v) : ClauseTree (⟨.name, f⟩ :: (o ++ a)) (callTree f op [v])
  | list {o w : List Token} {op : CallOp} {vs : List Literal} (f l r : List Char)
      (ho : ListOperator o op) (h : Items w vs) :
      ClauseTree (⟨.name, f⟩ :: (o ++ ⟨.leftParen, l⟩ :: (w ++ [⟨.rightParen, r⟩])))
        (callTree f op vs)
  | between {t u : Token} {low high : Literal} (f k l c r : List Char) (hl : Denotes t low)
      (hh : Denotes u high) :
      ClauseTree
        [⟨.name, f⟩, ⟨.betweenWord, k⟩, ⟨.leftParen, l⟩, t, ⟨.comma, c⟩, u, ⟨.rightParen, r⟩]
        (callTree f .between [low, high])
  | isNull (f j k : List Char) :
      ClauseTree [⟨.name, f⟩, ⟨.isWord, j⟩, ⟨.nullWord, k⟩] (callTree f .isNull [])
  | isNotNull (f i j k : List Char) :
      ClauseTree [⟨.name, f⟩, ⟨.isWord, i⟩, ⟨.notWord, j⟩, ⟨.nullWord, k⟩]
        (callTree f .isNotNull [])

/-! ## Phrases -/

/-- The phrases of the language, the loosest first. -/
inductive Phrase where
  | disjunction
  | conjunction
  | negation
  | primary
  deriving DecidableEq, Repr

/-- The tokens make up a phrase, and this is its tree. -/
inductive Derives : Phrase → List Token → Node → Prop where
  | or {u v : List Token} {m n : Node} (k : List Char) (hl : Derives .disjunction u m)
      (hr : Derives .conjunction v n) :
      Derives .disjunction (u ++ ⟨.orWord, k⟩ :: v) (.mkBinary .or m n)
  | conjunction {w : List Token} {n : Node} (h : Derives .conjunction w n) :
      Derives .disjunction w n
  | and {u v : List Token} {m n : Node} (k : List Char) (hl : Derives .conjunction u m)
      (hr : Derives .negation v n) :
      Derives .conjunction (u ++ ⟨.andWord, k⟩ :: v) (.mkBinary .and m n)
  | negation {w : List Token} {n : Node} (h : Derives .negation w n) : Derives .conjunction w n
  | not {w : List Token} {n : Node} (k : List Char) (h : Derives .primary w n) :
      Derives .negation (⟨.notWord, k⟩ :: w) (.mkNot n)
  | primary {w : List Token} {n : Node} (h : Derives .primary w n) : Derives .negation w n
  | clause {w : List Token} {n : Node} (h : ClauseTree w n) : Derives .primary w n
  | group {w : List Token} {n : Node} (l r : List Char) (h : Derives .disjunction w n) :
      Derives .primary (⟨.leftParen, l⟩ :: (w ++ [⟨.rightParen, r⟩])) (.mkGroup n)

/-- A filter is a disjunction. -/
abbrev Sentence (w : List Token) (n : Node) : Prop := Derives .disjunction w n

/-! ## No phrase is empty -/

theorem Items.snoc {w : List Token} {vs : List Literal} {t : Token} {v : Literal}
    (hs : Items w vs) (c : List Char) (h : Denotes t v) :
    Items (w ++ [⟨.comma, c⟩, t]) (vs ++ [v]) := by
  induction hs with
  | last h0 => exact .more h0 (.last h)
  | more h0 _ ih => exact .more h0 ih

theorem ClauseTree.ne_nil {w : List Token} {n : Node} (h : ClauseTree w n) : w ≠ [] := by
  intro hw
  cases h <;> exact List.cons_ne_nil _ _ hw

theorem Derives.ne_nil {p : Phrase} {w : List Token} {n : Node} (h : Derives p w n) : w ≠ [] := by
  induction h with
  | or k _ _ ihl => exact fun hw => ihl (List.append_eq_nil_iff.1 hw).1
  | and k _ _ ihl => exact fun hw => ihl (List.append_eq_nil_iff.1 hw).1
  | conjunction _ ih => exact ih
  | negation _ ih => exact ih
  | primary _ ih => exact ih
  | clause h => exact h.ne_nil
  | not k _ _ => exact List.cons_ne_nil _ _
  | group l r _ _ => exact List.cons_ne_nil _ _

end Grammar

end EntityQuery
