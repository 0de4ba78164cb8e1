import EntityQuery.Filter.Parse
import EntityQuery.Proofs.Filter.Grammar

/-!
# Reading follows the grammar

What a state of the reader has read is a part of a phrase (`ParseState.Read`). Every step keeps
this (`read_next`), so that a filter that is read to its end is a sentence (`sentence_of_finish`).
In the other direction a phrase leads the reader past itself, whatever was read before it
(`passes_of_derives`). Both together are `parse_eq_ok`.
-/

namespace EntityQuery

open Grammar

theorem Lexeme.token_eq {l : Lexeme} {t : Terminal} (h : l.terminal = t) :
    l.token = ⟨t, l.text⟩ := by rw [token, h]

theorem Clause.literal?_eq_some {l : Lexeme} {v : Literal} :
    Clause.literal? l = some v ↔ Denotes l.token v := by
  obtain ⟨t, w, start⟩ := l
  constructor
  · intro h
    cases t <;> simp only [literal?, Option.some.injEq, reduceCtorEq] at h
    all_goals subst h; constructor
  · intro h
    cases h <;> rfl

/-! ## What has been read of a clause -/

/-- The tokens of a clause that is not complete. -/
inductive Clause.Read : Clause → List Token → Prop where
  | subject (f : List Char) : Read (.subject (String.ofList f)) [⟨.name, f⟩]
  | negated (f j : List Char) : Read (.negated (String.ofList f)) [⟨.name, f⟩, ⟨.notWord, j⟩]
  | isWord (f i : List Char) : Read (.isWord (String.ofList f)) [⟨.name, f⟩, ⟨.isWord, i⟩]
  | isNot (f i j : List Char) :
      Read (.isNot (String.ofList f)) [⟨.name, f⟩, ⟨.isWord, i⟩, ⟨.notWord, j⟩]
  | comparison (f k : List Char) (c : Comparison) :
      Read (.comparison (String.ofList f) c) [⟨.name, f⟩, ⟨.compare c, k⟩]
  | test {o : List Token} {op : CallOp} (f : List Char) (ho : TextOperator o op) :
      Read (.test (String.ofList f) op) (⟨.name, f⟩ :: o)
  | testOpen {o : List Token} {op : CallOp} (f l : List Char) (ho : TextOperator o op) :
      Read (.testOpen (String.ofList f) op) (⟨.name, f⟩ :: (o ++ [⟨.leftParen, l⟩]))
  | testClose {o : List Token} {op : CallOp} {t : Token} {v : Literal} (f l : List Char)
      (ho : TextOperator o op) (h : Denotes t v) :
      Read (.testClose (String.ofList f) op v) (⟨.name, f⟩ :: (o ++ [⟨.leftParen, l⟩, t]))
  | list {o : List Token} {op : CallOp} (f : List Char) (ho : ListOperator o op) :
      Read (.list (String.ofList f) op) (⟨.name, f⟩ :: o)
  | firstItem {o : List Token} {op : CallOp} (f l : List Char) (ho : ListOperator o op) :
      Read (.item (String.ofList f) op []) (⟨.name, f⟩ :: (o ++ [⟨.leftParen, l⟩]))
  | nextItem {o w : List Token} {op : CallOp} {vs : List Literal} (f l c : List Char)
      (ho : ListOperator o op) (h : Items w vs) :
      Read (.item (String.ofList f) op vs)
        (⟨.name, f⟩ :: (o ++ ⟨.leftParen, l⟩ :: (w ++ [⟨.comma, c⟩])))
  | items {o w : List Token} {op : CallOp} {vs : List Literal} (f l : List Char)
      (ho : ListOperator o op) (h : Items w vs) :
      Read (.items (String.ofList f) op vs) (⟨.name, f⟩ :: (o ++ ⟨.leftParen, l⟩ :: w))
  | range (f k : List Char) : Read (.range (String.ofList f)) [⟨.name, f⟩, ⟨.betweenWord, k⟩]
  | low (f k l : List Char) :
      Read (.low (String.ofList f)) [⟨.name, f⟩, ⟨.betweenWord, k⟩, ⟨.leftParen, l⟩]
  | comma {t : Token} {v : Literal} (f k l : List Char) (h : Denotes t v) :
      Read (.comma (String.ofList f) v) [⟨.name, f⟩, ⟨.betweenWord, k⟩, ⟨.leftParen, l⟩, t]
  | high {t : Token} {v : Literal} (f k l c : List Char) (h : Denotes t v) :
      Read (.high (String.ofList f) v)
        [⟨.name, f⟩, ⟨.betweenWord, k⟩, ⟨.leftParen, l⟩, t, ⟨.comma, c⟩]
  | close {t u : Token} {v w : Literal} (f k l c : List Char) (hl : Denotes t v)
      (hh : Denotes u w) :
      Read (.close (String.ofList f) v w)
        [⟨.name, f⟩, ⟨.betweenWord, k⟩, ⟨.leftParen, l⟩, t, ⟨.comma, c⟩, u]

/-- The tokens of a clause that goes on or is complete. -/
def Clause.Step.Read : Clause.Step → List Token → Prop
  | .more c, w => c.Read w
  | .done n, w => ClauseTree w n

namespace Clause

theorem read_literal {l : Lexeme} {w : List Token} {f : Literal → Step} {s : Step}
    (hs : (literal? l).map f = some s) (h : ∀ v, Denotes l.token v → (f v).Read w) : s.Read w := by
  obtain ⟨v, hv, rfl⟩ := Option.map_eq_some_iff.1 hs
  exact h v (literal?_eq_some.1 hv)

theorem read_terminal {l : Lexeme} {t : Terminal} {w : List Token} {s s' : Step}
    (hs : (if l.terminal = t then some s' else none) = some s)
    (h : l.token = ⟨t, l.text⟩ → s'.Read w) : s.Read w := by
  split at hs
  · obtain rfl := Option.some.inj hs
    exact h (Lexeme.token_eq ‹_›)
  · nomatch hs

theorem read_operator {f : List Char} {l : Lexeme} {c : Clause}
    (h : operator? (String.ofList f) l.terminal = some c) : c.Read [⟨.name, f⟩, l.token] := by
  obtain ⟨t, w, start⟩ := l
  cases t <;> simp only [operator?, Option.some.injEq, reduceCtorEq] at h <;> subst h
  case compare c => exact .comparison f w c
  case contains => exact .test f (.contains w)
  case startsWith => exact .test f (.startsWith w)
  case endsWith => exact .test f (.endsWith w)
  case inWord => exact .list f (.isIn w)
  case betweenWord => exact .range f w
  case isWord => exact .isWord f w
  case notWord => exact .negated f w

/-- A step of the reader within a clause. -/
theorem read_next {c : Clause} {w : List Token} {l : Lexeme} {s : Step} (h : c.Read w)
    (hs : c.next? l = some s) : s.Read (w ++ [l.token]) := by
  cases h with
  | subject f =>
    obtain ⟨c, hc, rfl⟩ := Option.map_eq_some_iff.1 hs
    exact read_operator hc
  | negated f j =>
    simp only [next?] at hs
    split at hs
    · obtain rfl := Option.some.inj hs
      rw [Lexeme.token_eq ‹_›]
      exact .list f (.notIn j l.text)
    · obtain rfl := Option.some.inj hs
      rw [Lexeme.token_eq ‹_›]
      exact .test f (.notContains j l.text)
    · nomatch hs
  | isWord f i =>
    simp only [next?] at hs
    split at hs
    · obtain rfl := Option.some.inj hs
      rw [Lexeme.token_eq ‹_›]
      exact ClauseTree.isNull f i l.text
    · obtain rfl := Option.some.inj hs
      rw [Lexeme.token_eq ‹_›]
      exact .isNot f i l.text
    · nomatch hs
  | isNot f i j => exact read_terminal hs fun ht => ht ▸ ClauseTree.isNotNull f i j l.text
  | comparison f k c => exact read_literal hs fun v hv => ClauseTree.comparison f k c hv
  | test f ho =>
    simp only [next?] at hs
    split at hs
    · obtain rfl := Option.some.inj hs
      rw [Lexeme.token_eq ‹_›]
      exact .testOpen f l.text ho
    · exact read_literal hs fun v hv => ClauseTree.text f ho (.bare hv)
  | testOpen f p ho =>
    refine read_literal hs fun v hv => ?_
    rw [List.cons_append, List.append_assoc]
    exact .testClose f p ho hv
  | testClose f p ho h =>
    refine read_terminal hs fun ht => ?_
    rw [ht, List.cons_append, List.append_assoc]
    exact ClauseTree.text f ho (.wrapped h)
  | list f ho => exact read_terminal hs fun ht => ht ▸ .firstItem f l.text ho
  | firstItem f p ho =>
    refine read_literal hs fun v hv => ?_
    rw [List.cons_append, List.append_assoc]
    exact .items f p ho (.last hv)
  | nextItem f p c ho h =>
    refine read_literal hs fun v hv => ?_
    simp only [List.cons_append, List.append_assoc, List.nil_append]
    exact .items f p ho (h.snoc c hv)
  | items f p ho h =>
    simp only [next?] at hs
    split at hs
    · obtain rfl := Option.some.inj hs
      rw [Lexeme.token_eq ‹_›, List.cons_append, List.append_assoc, List.cons_append]
      exact .nextItem f p l.text ho h
    · obtain rfl := Option.some.inj hs
      rw [Lexeme.token_eq ‹_›, List.cons_append, List.append_assoc, List.cons_append]
      exact ClauseTree.list f p l.text ho h
    · nomatch hs
  | range f k => exact read_terminal hs fun ht => ht ▸ .low f k l.text
  | low f k p => exact read_literal hs fun v hv => .comma f k p hv
  | comma f k p h => exact read_terminal hs fun ht => ht ▸ .high f k p l.text h
  | high f k p c h => exact read_literal hs fun v hv => .close f k p c h hv
  | close f k p c hl hh =>
    exact read_terminal hs fun ht => ht ▸ ClauseTree.between f k p c l.text hl hh

end Clause

/-! ## What has been read around a clause -/

/-- The tokens up to an operator, with the left operand that waits in front of it. -/
inductive Grammar.Waits (p : Phrase) (op : Terminal) : Option Node → List Token → Prop where
  | nothing : Waits p op none []
  | left {w : List Token} {n : Node} (h : Derives p w n) (k : List Char) :
      Waits p op (some n) (w ++ [⟨op, k⟩])

/-- The `not` in front of an operand. -/
inductive Grammar.Negates : Bool → List Token → Prop where
  | plain : Negates false []
  | negated (k : List Char) : Negates true [⟨.notWord, k⟩]

/-- The tokens of a level up to the operand that is next. -/
inductive Pending.Read : Pending → List Token → Prop where
  | intro {d c : Option Node} {b : Bool} {u v w : List Token}
      (hd : Waits .disjunction .orWord d u) (hc : Waits .conjunction .andWord c v)
      (hn : Negates b w) : Read ⟨d, c, b⟩ (u ++ v ++ w)

/-- The tokens of all levels around the innermost one, each with the parenthesis at its end. -/
inductive Pending.ReadAll : List Pending → List Token → Prop where
  | nil : ReadAll [] []
  | cons {p : Pending} {ps : List Pending} {u v : List Token} (l : List Char)
      (ho : ReadAll ps u) (hp : p.Read v) : ReadAll (p :: ps) (u ++ v ++ [⟨.leftParen, l⟩])

inductive ParseState.Read : ParseState → List Token → Prop where
  | operand {outer : List Pending} {p : Pending} {u v : List Token}
      (ho : Pending.ReadAll outer u) (hp : p.Read v) : Read ⟨outer, p, .operand⟩ (u ++ v)
  | clause {outer : List Pending} {p : Pending} {c : Clause} {u v w : List Token}
      (ho : Pending.ReadAll outer u) (hp : p.Read v) (hc : c.Read w) :
      Read ⟨outer, p, .clause c⟩ (u ++ v ++ w)
  | complete {outer : List Pending} {p : Pending} {n : Node} {u v w : List Token}
      (ho : Pending.ReadAll outer u) (hd : Waits .disjunction .orWord p.disjunct v)
      (h : Derives .conjunction w n) : Read ⟨outer, p, .complete n⟩ (u ++ v ++ w)

namespace Grammar

theorem Waits.disjunction {d : Option Node} {u w : List Token} {n : Node}
    (hd : Waits .disjunction .orWord d u) (h : Derives .conjunction w n) :
    Derives .disjunction (u ++ w) (Pending.join .or d n) := by
  cases hd with
  | nothing => exact .conjunction h
  | left hm k =>
    rw [List.append_assoc]
    exact .or k hm h

theorem Waits.conjunction {c : Option Node} {u w : List Token} {n : Node}
    (hc : Waits .conjunction .andWord c u) (h : Derives .negation w n) :
    Derives .conjunction (u ++ w) (Pending.join .and c n) := by
  cases hc with
  | nothing => exact .negation h
  | left hm k =>
    rw [List.append_assoc]
    exact .and k hm h

theorem Negates.negation {b : Bool} {u w : List Token} {n : Node} (hb : Negates b u)
    (h : Derives .primary w n) : Derives .negation (u ++ w) (if b then .mkNot n else n) := by
  cases hb with
  | plain => exact .primary h
  | negated k => exact .not k h

end Grammar

namespace ParseState

theorem read_start : start.Read [] := .operand .nil (.intro .nothing .nothing .plain)

theorem read_primary {outer : List Pending} {p : Pending} {u v w : List Token} {n : Node}
    (ho : Pending.ReadAll outer u) (hp : p.Read v) (h : Derives .primary w n) :
    (primary outer p n).Read (u ++ v ++ w) := by
  cases hp with
  | @intro d c b x y z hd hc hn =>
    have hconj : Derives .conjunction (y ++ (z ++ w)) (Pending.conjunction ⟨d, c, b⟩ n) :=
      hc.conjunction (hn.negation h)
    have hread := ParseState.Read.complete (p := ⟨d, c, b⟩) ho hd hconj
    simp only [List.append_assoc] at hread ⊢
    exact hread

theorem read_next_operand {outer : List Pending} {p : Pending} {u v : List Token} {l : Lexeme}
    {s : ParseState} (ho : Pending.ReadAll outer u) (hp : p.Read v)
    (hs : next? ⟨outer, p, .operand⟩ l = some s) : s.Read (u ++ v ++ [l.token]) := by
  simp only [next?] at hs
  split at hs
  · split at hs
    · nomatch hs
    · rename_i hplain
      obtain rfl := Option.some.inj hs
      rw [Lexeme.token_eq ‹_›, List.append_assoc]
      cases hp with
      | intro hd hc hn =>
        cases hn with
        | plain =>
          rw [List.append_nil]
          exact .operand ho (.intro hd hc (.negated l.text))
        | negated k => exact absurd rfl hplain
  · obtain rfl := Option.some.inj hs
    rw [Lexeme.token_eq ‹_›]
    have hread := ParseState.Read.operand (.cons l.text ho hp)
      (.intro .nothing .nothing .plain)
    rwa [List.append_nil, List.append_nil, List.append_nil] at hread
  · obtain rfl := Option.some.inj hs
    rw [Lexeme.token_eq ‹_›]
    exact .clause ho hp (.subject l.text)
  · nomatch hs

theorem read_next_complete {outer : List Pending} {p : Pending} {n : Node} {u v w : List Token}
    {l : Lexeme} {s : ParseState} (ho : Pending.ReadAll outer u)
    (hd : Waits .disjunction .orWord p.disjunct v) (h : Derives .conjunction w n)
    (hs : next? ⟨outer, p, .complete n⟩ l = some s) : s.Read (u ++ v ++ w ++ [l.token]) := by
  simp only [next?] at hs
  split at hs
  · obtain rfl := Option.some.inj hs
    rw [Lexeme.token_eq ‹_›, List.append_assoc, List.append_assoc, ← List.append_nil (w ++ _),
      ← List.append_assoc v]
    exact .operand ho (.intro hd (.left h l.text) .plain)
  · obtain rfl := Option.some.inj hs
    have hread := ParseState.Read.operand ho
      (.intro (.left (hd.disjunction h) l.text) .nothing .plain)
    rw [Lexeme.token_eq ‹_›]
    simp only [List.append_assoc, List.append_nil] at hread ⊢
    exact hread
  · split at hs
    · nomatch hs
    · obtain rfl := Option.some.inj hs
      rename_i q outer' heq
      cases ho with
      | cons k ho hq =>
        have hread := read_primary ho hq (.group k l.text (hd.disjunction h))
        rw [Lexeme.token_eq ‹_›]
        simp only [List.append_assoc, List.cons_append, List.nil_append] at hread ⊢
        exact hread
  · nomatch hs

/-- A step of the reader keeps account of what has been read. -/
theorem read_next {s s' : ParseState} {w : List Token} {l : Lexeme} (h : s.Read w)
    (hs : s.next? l = some s') : s'.Read (w ++ [l.token]) := by
  cases h with
  | operand ho hp => exact read_next_operand ho hp hs
  | complete ho hd h => exact read_next_complete ho hd h hs
  | @clause outer p c u v w ho hp hc =>
    simp only [next?] at hs
    rw [List.append_assoc]
    cases hnext : c.next? l with
    | none =>
      rw [hnext] at hs
      nomatch hs
    | some step =>
      rw [hnext] at hs
      have hstep := Clause.read_next hc hnext
      cases step with
      | more d =>
        obtain rfl := Option.some.inj hs
        exact .clause ho hp hstep
      | done n =>
        obtain rfl := Option.some.inj hs
        exact read_primary ho hp (.clause hstep)

theorem sentence_of_finish {s : ParseState} {w : List Token} {n : Node} (h : s.Read w)
    (hf : s.finish? = some n) : Sentence w n := by
  cases h with
  | operand _ _ => nomatch hf
  | clause _ _ _ => nomatch hf
  | @complete outer p n u v w ho hd h =>
    cases ho with
    | nil =>
      obtain rfl := Option.some.inj hf
      exact hd.disjunction h
    | cons _ _ _ => nomatch hf

/-! ## Reading along a phrase -/

/-- The state with one more token; the place of a lexeme does not matter. -/
def step? (s : ParseState) (t : Token) : Option ParseState := s.next? ⟨t.terminal, t.text, 0⟩

def steps? (s : ParseState) (w : List Token) : Option ParseState := w.foldlM step? s

theorem next?_eq_step? (s : ParseState) (l : Lexeme) : s.next? l = s.step? l.token := rfl

@[simp] theorem steps?_nil (s : ParseState) : s.steps? [] = some s := rfl

@[simp] theorem steps?_cons (s : ParseState) (t : Token) (w : List Token) :
    s.steps? (t :: w) = (s.step? t).bind fun s' => s'.steps? w := List.foldlM_cons

theorem steps?_append (s : ParseState) (v w : List Token) :
    s.steps? (v ++ w) = (s.steps? v).bind fun s' => s'.steps? w := List.foldlM_append

theorem steps?_append_of_eq {s s' : ParseState} {v : List Token} (h : s.steps? v = some s')
    (w : List Token) : s.steps? (v ++ w) = s'.steps? w := by
  rw [steps?_append, h, Option.bind_some]

/-- Lexemes are read by their tokens. -/
theorem run_eq_ok {ls : List Lexeme} {s s' : ParseState} :
    s.run ls = .ok s' ↔ s.steps? (ls.map Lexeme.token) = some s' := by
  induction ls generalizing s with
  | nil => rw [List.map_nil, steps?_nil, run, Except.ok.injEq, Option.some.injEq]
  | cons l ls ih =>
    rw [List.map_cons, steps?_cons, run, next?_eq_step?]
    cases s.step? l.token with
    | none => exact ⟨nofun, nofun⟩
    | some t => exact ih

theorem read_steps? {s s' : ParseState} {v w : List Token} (h : s.Read v)
    (hs : s.steps? w = some s') : s'.Read (v ++ w) := by
  induction w generalizing s v with
  | nil =>
    obtain rfl := Option.some.inj hs
    rwa [List.append_nil]
  | cons t w ih =>
    rw [steps?_cons] at hs
    obtain ⟨r, hr, hs⟩ := Option.bind_eq_some_iff.1 hs
    have hrest := ih (read_next h hr) hs
    rwa [List.append_assoc] at hrest

section Clauses

variable (outer : List Pending) (p : Pending)

theorem step?_literal {t : Token} {v : Literal} (h : Denotes t v) :
    Clause.literal? ⟨t.terminal, t.text, 0⟩ = some v := Clause.literal?_eq_some.2 h

theorem steps?_argument {w : List Token} {v : Literal} (f : String) (op : CallOp)
    (h : OneArgument w v) :
    steps? ⟨outer, p, .clause (.test f op)⟩ w =
      some (primary outer p (.mkCall op (.field f) [.literal v])) := by
  cases h with
  | bare h =>
    have hl := step?_literal h
    cases h <;> simp [step?, next?, Clause.next?, Clause.call, hl]
  | wrapped h =>
    simp [step?, next?, Clause.next?, Clause.call, step?_literal h]

theorem steps?_items {w : List Token} {us vs : List Literal} (f : String) (op : CallOp)
    (h : Items w vs) :
    steps? ⟨outer, p, .clause (.item f op us)⟩ w =
      some ⟨outer, p, .clause (.items f op (us ++ vs))⟩ := by
  induction h generalizing us with
  | last h => simp [step?, next?, Clause.next?, step?_literal h]
  | more h _ ih => simp [step?, next?, Clause.next?, step?_literal h, ih]

theorem steps?_textOperator {o : List Token} {op : CallOp} (f : String)
    (h : TextOperator o op) :
    steps? ⟨outer, p, .clause (.subject f)⟩ o = some ⟨outer, p, .clause (.test f op)⟩ := by
  cases h <;> rfl

theorem steps?_listOperator {o : List Token} {op : CallOp} (f : String)
    (h : ListOperator o op) :
    steps? ⟨outer, p, .clause (.subject f)⟩ o = some ⟨outer, p, .clause (.list f op)⟩ := by
  cases h <;> rfl

theorem steps?_clause {w : List Token} {n : Node} (h : ClauseTree w n) :
    steps? ⟨outer, p, .operand⟩ w = some (primary outer p n) := by
  cases h with
  | comparison f k c h =>
    simp [step?, next?, Clause.next?, Clause.operator?, step?_literal h]
  | text f ho ha =>
    rw [steps?_cons]
    exact (steps?_append_of_eq (steps?_textOperator outer p _ ho) _).trans
      (steps?_argument outer p _ _ ha)
  | list f l r ho h =>
    rw [steps?_cons]
    refine (steps?_append_of_eq (steps?_listOperator outer p _ ho) _).trans ?_
    rw [steps?_cons]
    exact (steps?_append_of_eq (steps?_items outer p _ _ h) _).trans rfl
  | between f k l c r hl hh =>
    simp [step?, next?, Clause.next?, Clause.operator?, Clause.call, callTree, step?_literal hl,
      step?_literal hh]
  | isNull f j k => rfl
  | isNotNull f i j k => rfl

end Clauses

/-- Reading past a phrase, from the states in which it may begin. -/
def Passes : Phrase → List Token → Node → Prop
  | .disjunction, w, n =>
    ∀ outer, ∃ q m, steps? ⟨outer, .empty, .operand⟩ w = some ⟨outer, q, .complete m⟩ ∧
      q.disjunction m = n
  | .conjunction, w, n =>
    ∀ outer d, ∃ q : Pending, steps? ⟨outer, ⟨d, none, false⟩, .operand⟩ w =
      some ⟨outer, q, .complete n⟩ ∧ q.disjunct = d
  | .negation, w, n =>
    ∀ outer d c, ∃ q : Pending, steps? ⟨outer, ⟨d, c, false⟩, .operand⟩ w =
      some ⟨outer, q, .complete (Pending.join .and c n)⟩ ∧ q.disjunct = d
  | .primary, w, n =>
    ∀ outer p, steps? ⟨outer, p, .operand⟩ w = some (primary outer p n)

theorem passes_of_derives {p : Phrase} {w : List Token} {n : Node} (h : Derives p w n) :
    Passes p w n := by
  induction h with
  | @or u v m n k _ _ ihl ihr =>
    intro outer
    obtain ⟨q, m', hl, hm⟩ := ihl outer
    obtain ⟨q', hr, hd⟩ := ihr outer (some m)
    refine ⟨q', n, ?_, by rw [Pending.disjunction, hd]; rfl⟩
    rw [steps?_append_of_eq hl, steps?_cons, ← hr, ← hm]
    rfl
  | conjunction _ ih =>
    intro outer
    obtain ⟨q, h, hd⟩ := ih outer none
    exact ⟨q, _, h, by rw [Pending.disjunction, hd]; rfl⟩
  | @and u v m n k _ _ ihl ihr =>
    intro outer d
    obtain ⟨q, hl, rfl⟩ := ihl outer d
    obtain ⟨q', hr, hd⟩ := ihr outer q.disjunct (some m)
    refine ⟨q', ?_, hd⟩
    rw [steps?_append_of_eq hl, steps?_cons]
    exact hr
  | negation _ ih => exact fun outer d => ih outer d none
  | not k _ ih => exact fun outer d c => ⟨⟨d, c, true⟩, ih outer ⟨d, c, true⟩, rfl⟩
  | primary _ ih => exact fun outer d c => ⟨⟨d, c, false⟩, ih outer ⟨d, c, false⟩, rfl⟩
  | clause h => exact fun outer p => steps?_clause outer p h
  | group l r _ ih =>
    intro outer p
    obtain ⟨q, m, h, hm⟩ := ih (p :: outer)
    rw [steps?_cons]
    refine (steps?_append_of_eq h _).trans ?_
    rw [← hm]
    rfl

/-- The sentences are what the reader takes to its end. -/
theorem sentence_iff_steps? {w : List Token} {n : Node} :
    Sentence w n ↔ ∃ s, start.steps? w = some s ∧ s.finish? = some n := by
  constructor
  · intro h
    obtain ⟨q, m, hsteps, hm⟩ := passes_of_derives h []
    exact ⟨_, hsteps, congrArg some hm⟩
  · rintro ⟨s, hsteps, hfinish⟩
    exact sentence_of_finish (read_steps? read_start hsteps) hfinish

end ParseState

/-! ## The trees of texts -/

theorem Cut.ofChars_of_blank {cs : List Char} (h : cs.all Text.isBlank = true) (start : Nat) :
    Cut.ofChars start cs = ⟨[], none⟩ := by
  induction cs generalizing start with
  | nil => rw [ofChars]
  | cons c cs ih =>
    rw [List.all_cons, Bool.and_eq_true] at h
    rw [ofChars, if_pos h.1, ih h.2]

namespace Node

theorem ofCut_eq_ok {c : Cut} {n : Node} :
    ofCut c = .ok n ↔ c.stuck = none ∧ Sentence (c.lexemes.map Lexeme.token) n := by
  rw [ParseState.sentence_iff_steps?]
  constructor
  · intro h
    unfold ofCut at h
    split at h
    · nomatch h
    · rename_i s hrun
      split at h
      · nomatch h
      · split at h
        · rename_i hstuck _ m hfinish
          obtain rfl := Except.ok.inj h
          exact ⟨hstuck, s, ParseState.run_eq_ok.1 hrun, hfinish⟩
        · nomatch h
  · rintro ⟨hstuck, s, hsteps, hfinish⟩
    simp only [ofCut, ParseState.run_eq_ok.2 hsteps, hstuck, hfinish]

/-- A filter is read exactly if it is cut to its end into a sentence of the grammar, and its tree
is that of the sentence. -/
theorem parse_eq_ok {s : String} {n : Node} :
    Node.parse s = .ok n ↔ ∃ ls, Cut.ofText s = ⟨ls, none⟩ ∧ Sentence (ls.map Lexeme.token) n := by
  have hcut : (∃ ls, Cut.ofText s = ⟨ls, none⟩ ∧ Sentence (ls.map Lexeme.token) n) ↔
      ofCut (.ofText s) = .ok n := by
    rw [ofCut_eq_ok]
    constructor
    · rintro ⟨ls, hls, h⟩
      rw [hls]
      exact ⟨rfl, h⟩
    · exact fun ⟨hstuck, h⟩ => ⟨_, by rw [← hstuck], h⟩
  rw [hcut, Node.parse]
  split
  · rename_i hblank
    refine ⟨fun h => (nomatch h), fun h => ?_⟩
    rw [Cut.ofText, Cut.ofChars_of_blank hblank] at h
    exact absurd rfl (ofCut_eq_ok.1 h).2.ne_nil
  · exact Iff.rfl

end Node

end EntityQuery
