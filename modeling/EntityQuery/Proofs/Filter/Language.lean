import EntityQuery.Proofs.Filter.Scanning

/-!
# The language of filters

The grammar gives each sentence one tree (`Derives.unique`), and these trees are layered: an `or`
has no `or` to its right, an `and` has no `or` at its sides and no `and` to its right, a `not` has
a clause or a group behind it, and every operator has as many literals as it takes
(`layered_of_derives`). `Node.parse_iff_sentence` says that exactly the texts whose tokens are a
sentence are read, as the tree of the sentence.
-/

namespace EntityQuery

open Grammar

/-! ## One tree for a sentence -/

namespace Grammar

theorem Derives.sentence {p : Phrase} {w : List Token} {n : Node} (h : Derives p w n) :
    Sentence w n := by
  cases p with
  | disjunction => exact h
  | conjunction => exact .conjunction h
  | negation => exact .conjunction (.negation h)
  | primary => exact .conjunction (.negation (.primary h))

/-- The reader is led to one state only, whatever phrase the tokens are taken for. -/
theorem Derives.unique {p q : Phrase} {w : List Token} {m n : Node} (hm : Derives p w m)
    (hn : Derives q w n) : m = n := by
  obtain ⟨r, k, hsteps, hk⟩ := ParseState.passes_of_derives hm.sentence []
  obtain ⟨r', k', hsteps', hk'⟩ := ParseState.passes_of_derives hn.sentence []
  have hsame := Option.some.inj (hsteps.symm.trans hsteps')
  simp only [ParseState.mk.injEq, Focus.complete.injEq] at hsame
  obtain ⟨-, rfl, rfl⟩ := hsame
  exact hk.symm.trans hk'

/-! ## Layers -/

/-- How tightly a phrase holds its parts together. -/
def Phrase.tightness : Phrase → Nat
  | disjunction => 0
  | conjunction => 1
  | negation => 2
  | primary => 3

end Grammar

namespace Node

/-- The phrase that a tree is by its uppermost operator. -/
def phrase : Node → Phrase
  | binary .or _ _ _ => .disjunction
  | binary .and _ _ _ => .conjunction
  | negation _ _ => .negation
  | _ => .primary

/-- A tree holds together at least as tightly as a phrase. -/
def FitsAs (n : Node) (p : Phrase) : Prop := p.tightness ≤ n.phrase.tightness

/-- Operators bind in their order and to the left, and clauses are fields with an operator and as
many literals as it takes. -/
def Layered : Node → Prop
  | binary .or l r _ => l.Layered ∧ r.Layered ∧ r.FitsAs .conjunction
  | binary .and l r _ => l.Layered ∧ r.Layered ∧ l.FitsAs .conjunction ∧ r.FitsAs .negation
  | negation n _ => n.Layered ∧ n.FitsAs .primary
  | group n _ => n.Layered
  | binary (.compare _) l r _ => (∃ f, l = field f) ∧ ∃ v, r = literal v
  | call op t args _ =>
    (∃ f, t = field f) ∧ (∃ vs : List Literal, args = vs.map literal) ∧
      op.admits args.length = true
  | literal _ | field _ => False

end Node

namespace Grammar

theorem Items.length_pos {w : List Token} {vs : List Literal} (h : Items w vs) :
    1 ≤ vs.length := by
  cases h with
  | last => exact Nat.le_refl 1
  | more => exact Nat.succ_le_succ (Nat.zero_le _)

theorem layered_callTree {f : List Char} {op : CallOp} {vs : List Literal}
    (h : op.admits vs.length = true) : (callTree f op vs).Layered :=
  ⟨⟨_, rfl⟩, ⟨vs, rfl⟩, by rwa [List.length_map]⟩

theorem layered_of_clauseTree {w : List Token} {n : Node} (h : ClauseTree w n) :
    n.Layered ∧ n.FitsAs .primary := by
  cases h with
  | comparison f k c h => exact ⟨⟨⟨_, rfl⟩, _, rfl⟩, Nat.le_refl 3⟩
  | text f ho ha =>
    refine ⟨layered_callTree ?_, Nat.le_refl 3⟩
    cases ho <;> rfl
  | @list o w op vs f l r ho h =>
    refine ⟨layered_callTree ?_, Nat.le_refl 3⟩
    have hpos : decide (1 ≤ vs.length) = true := decide_eq_true h.length_pos
    cases ho <;> rw [CallOp.admits, CallOp.arity, hpos] <;> rfl
  | between => exact ⟨layered_callTree rfl, Nat.le_refl 3⟩
  | isNull => exact ⟨layered_callTree rfl, Nat.le_refl 3⟩
  | isNotNull => exact ⟨layered_callTree rfl, Nat.le_refl 3⟩

/-- Every phrase holds together as tightly as it should. -/
theorem layered_of_derives {p : Phrase} {w : List Token} {n : Node} (h : Derives p w n) :
    n.Layered ∧ n.FitsAs p := by
  induction h with
  | or k _ _ ihl ihr => exact ⟨⟨ihl.1, ihr.1, ihr.2⟩, Nat.le_refl 0⟩
  | and k _ _ ihl ihr => exact ⟨⟨ihl.1, ihr.1, ihl.2, ihr.2⟩, Nat.le_refl 1⟩
  | not k _ ih => exact ⟨⟨ih.1, ih.2⟩, Nat.le_refl 2⟩
  | conjunction _ ih => exact ⟨ih.1, Nat.le_of_succ_le ih.2⟩
  | negation _ ih => exact ⟨ih.1, Nat.le_of_succ_le ih.2⟩
  | primary _ ih => exact ⟨ih.1, Nat.le_of_succ_le ih.2⟩
  | clause h => exact layered_of_clauseTree h
  | group l r _ ih => exact ⟨ih.1, Nat.le_refl 3⟩

end Grammar

/-! ## What is read -/

theorem Scans.unique {cs : List Char} {v w : List Token} (hv : Scans cs v) (hw : Scans cs w) :
    v = w := by
  obtain ⟨ls, hls, rfl⟩ := hv.ofChars 0
  obtain ⟨ms, hms, rfl⟩ := hw.ofChars 0
  rw [hls] at hms
  rw [(Cut.mk.inj hms).1]

namespace Node

theorem parse_iff_scans {s : String} {n : Node} :
    Node.parse s = .ok n ↔ ∃ w, Scans s.toList w ∧ Sentence w n := by
  rw [parse_eq_ok]
  constructor
  · rintro ⟨ls, hls, h⟩
    exact ⟨_, scans_iff.2 ⟨ls, hls, rfl⟩, h⟩
  · rintro ⟨w, hw, h⟩
    obtain ⟨ls, hls, rfl⟩ := scans_iff.1 hw
    exact ⟨ls, hls, h⟩

/-- Exactly the texts are read that are cut into a sentence of the grammar, each as the one tree of
its sentence, in which the operators bind as they should; all other texts are in error. The same
holds of sequences of tokens from elsewhere. -/
theorem parse_iff_sentence :
    (∀ (s : String) (n : Node), Node.parse s = .ok n ↔ ∃ w, Scans s.toList w ∧ Sentence w n) ∧
      (∀ (ls : List Lexeme) (n : Node),
        Node.ofCut ⟨ls, none⟩ = .ok n ↔ Sentence (ls.map Lexeme.token) n) ∧
      (∀ (cs : List Char) (v w : List Token), Scans cs v → Scans cs w → v = w) ∧
      (∀ (w : List Token) (m n : Node), Sentence w m → Sentence w n → m = n) ∧
      (∀ (w : List Token) (n : Node), Sentence w n → n.Layered) ∧
      ∀ s : String, (¬ ∃ w n, Scans s.toList w ∧ Sentence w n) → ∃ e, Node.parse s = .error e := by
  refine ⟨fun s n => parse_iff_scans, fun ls n => ?_, fun cs v w => Scans.unique,
    fun w m n => Derives.unique, fun w n h => (layered_of_derives h).1, fun s h => ?_⟩
  · rw [ofCut_eq_ok]
    exact and_iff_right rfl
  · cases hparse : Node.parse s with
    | error e => exact ⟨e, rfl⟩
    | ok n =>
      obtain ⟨w, hw, hn⟩ := parse_iff_scans.1 hparse
      exact absurd ⟨w, n, hw, hn⟩ h

/-- A chain of operators without parentheses. -/
def chainText : String := "a is null or b in(1) or c>2 AND not d is not null"

def chainTree : Node :=
  .mkBinary .or
    (.mkBinary .or (.mkCall .isNull (.field "a") [])
      (.mkCall .isIn (.field "b") [.literal ⟨"1", .number⟩]))
    (.mkBinary .and (.mkBinary (.compare .gt) (.field "c") (.literal ⟨"2", .number⟩))
      (.mkNot (.mkCall .isNotNull (.field "d") [])))

theorem parse_chainText : Node.parse chainText = .ok chainTree := by
  have hcut : Cut.ofText chainText =
      ⟨[⟨.name, ['a'], 0⟩, ⟨.isWord, "is".toList, 2⟩, ⟨.nullWord, "null".toList, 5⟩,
        ⟨.orWord, "or".toList, 10⟩, ⟨.name, ['b'], 13⟩, ⟨.inWord, "in".toList, 15⟩,
        ⟨.leftParen, ['('], 17⟩, ⟨.number, ['1'], 18⟩, ⟨.rightParen, [')'], 19⟩,
        ⟨.orWord, "or".toList, 21⟩, ⟨.name, ['c'], 24⟩, ⟨.compare .gt, ['>'], 25⟩,
        ⟨.number, ['2'], 26⟩, ⟨.andWord, "AND".toList, 28⟩, ⟨.notWord, "not".toList, 32⟩,
        ⟨.name, ['d'], 36⟩, ⟨.isWord, "is".toList, 38⟩, ⟨.notWord, "not".toList, 41⟩,
        ⟨.nullWord, "null".toList, 45⟩], none⟩ := by
    decide +kernel
  rw [Node.parse, if_neg (by decide), hcut]
  rfl

theorem parse_iff_sentence_chainText :
    ∃ w, Scans chainText.toList w ∧ Sentence w chainTree ∧
      (∀ n, Sentence w n → n = chainTree) ∧ chainTree.Layered := by
  obtain ⟨hread, -, -, hunique, hlayered, -⟩ := parse_iff_sentence
  obtain ⟨w, hw, h⟩ := (hread chainText chainTree).1 parse_chainText
  exact ⟨w, hw, h, fun n hn => hunique w n chainTree hn h, hlayered w chainTree h⟩

end Node

end EntityQuery
