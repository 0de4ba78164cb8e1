import EntityQuery.Proofs.Filter.Reading
import EntityQuery.Proofs.Filter.Relexing

/-!
# Filters read back from their text

`Spells` says that a text is cut into certain tokens wherever it stands in front of a separator.
The text of a tree spells a sentence with that same tree, phrase by phrase (`spells_of_derives`):
keywords come back in lower case, literals in the shape that `Literal.display` gives them, and a
single argument in parentheses. Hence a filter that was read is read again from its text.
-/

namespace EntityQuery

open Grammar Lexeme

theorem Text.utf8Length_append (a b : List Char) :
    Text.utf8Length (a ++ b) = Text.utf8Length a + Text.utf8Length b := by
  induction a with
  | nil => rw [List.nil_append, utf8Length, Nat.zero_add]
  | cons c a ih => rw [List.cons_append, utf8Length, utf8Length, ih, Nat.add_assoc]

theorem Terminal.mem_every (t : Terminal) : t ∈ every := by
  cases t with
  | compare c => cases c <;> decide
  | _ => decide

/-- What a keyword, a bracket or a comparison is called is one way to write it. -/
theorem whole_description {t : Terminal} (h : t ∉ [.dateTime, .guid, .name, .number, .quoted]) :
    Whole t t.description.toList := by
  have htable : ∀ t ∈ Terminal.every, t ∉ [.dateTime, .guid, .name, .number, .quoted] →
      Whole t t.description.toList := by
    decide
  exact htable t (Terminal.mem_every t) h

/-! ## Texts and tokens -/

/-- A cut behind some lexemes. -/
def Cut.after (ls : List Lexeme) (c : Cut) : Cut := ⟨ls ++ c.lexemes, c.stuck⟩

/-- Wherever the text stands in front of a separator or the end, it is cut into these tokens. -/
def Spells (cs : List Char) (ts : List Token) : Prop :=
  ∀ start rest, Separated rest → ∃ ls : List Lexeme, ls.map Lexeme.token = ts ∧
    Cut.ofChars start (cs ++ rest) = (Cut.ofChars (start + Text.utf8Length cs) rest).after ls

theorem Lexeme.Separated.append {a b : List Char} (ha : Separated a) (hb : Separated b) :
    Separated (a ++ b) := by
  cases a with
  | nil => exact hb
  | cons c a => exact ha

theorem Cut.ofChars_front {start : Nat} {t : Terminal} {w rest : List Char} (h : Whole t w)
    (hfront : front? (w ++ rest) = some (t, w.length)) :
    Cut.ofChars start (w ++ rest) =
      (Cut.ofChars (start + Text.utf8Length w) rest).after [⟨t, w, start⟩] :=
  ofChars_append h.head hfront rfl

namespace Spells

theorem append {a b : List Char} {u v : List Token} (ha : Spells a u) (hb : Spells b v)
    (hs : Separated b) : Spells (a ++ b) (u ++ v) := by
  intro start rest hrest
  obtain ⟨ls, hls, hcut⟩ := ha start (b ++ rest) (hs.append hrest)
  obtain ⟨ms, hms, hcut'⟩ := hb (start + Text.utf8Length a) rest hrest
  refine ⟨ls ++ ms, by rw [List.map_append, hls, hms], ?_⟩
  rw [List.append_assoc, hcut, hcut', Text.utf8Length_append, Nat.add_assoc]
  simp only [Cut.after, List.append_assoc]

theorem whole {t : Terminal} {w : List Char} (h : Whole t w) : Spells w [⟨t, w⟩] := by
  intro start rest hrest
  exact ⟨[⟨t, w, start⟩], rfl, Cut.ofChars_front h (front?_append_of_whole h hrest)⟩

theorem blank {b : List Char} {v : List Token} (hb : Spells b v) : Spells (' ' :: b) v := by
  intro start rest hrest
  obtain ⟨ls, hls, hcut⟩ := hb (start + 1) rest hrest
  have hblank : Text.isBlank ' ' = true := by decide
  have hsize : Text.utf8Length (' ' :: b) = 1 + Text.utf8Length b := rfl
  refine ⟨ls, hls, ?_⟩
  rw [List.cons_append, Cut.ofChars, if_pos hblank, hsize, ← Nat.add_assoc]
  exact hcut

theorem spaced {a b : List Char} {u v : List Token} (ha : Spells a u) (hb : Spells b v) :
    Spells (a ++ ' ' :: b) (u ++ v) := ha.append hb.blank (by rintro c ⟨⟩; decide)

theorem closed {a : List Char} {u : List Token} (ha : Spells a u) :
    Spells (a ++ [')']) (u ++ [⟨.rightParen, [')']⟩]) :=
  ha.append (whole (whole_description (t := .rightParen) (by decide))) (by rintro c ⟨⟩; decide)

theorem comma {a b : List Char} {u v : List Token} (ha : Spells a u) (hb : Spells b v) :
    Spells (a ++ ',' :: ' ' :: b) (u ++ ⟨.comma, [',']⟩ :: v) :=
  have hcomma : Spells [','] [⟨.comma, [',']⟩] :=
    whole (whole_description (t := .comma) (by decide))
  ha.append (hcomma.spaced hb) (by rintro c ⟨⟩; decide)

theorem opened {b : List Char} {v : List Token} (hb : Spells b v) :
    Spells ('(' :: b) (⟨.leftParen, ['(']⟩ :: v) := by
  intro start rest hrest
  have hwhole : Whole .leftParen ['('] := whole_description (by decide)
  obtain ⟨ls, hls, hcut⟩ := hb (start + 1) rest hrest
  refine ⟨⟨.leftParen, ['('], start⟩ :: ls, by rw [List.map_cons, hls]; rfl, ?_⟩
  have hfront : front? (['('] ++ (b ++ rest)) = some (.leftParen, ['('].length) := by
    rw [front?_append (ends_leftParen _), hwhole.front]
  have hopen : Cut.ofChars start ('(' :: (b ++ rest)) =
      (Cut.ofChars (start + 1) (b ++ rest)).after [⟨.leftParen, ['('], start⟩] :=
    Cut.ofChars_front hwhole hfront
  have hsize : Text.utf8Length ('(' :: b) = 1 + Text.utf8Length b := rfl
  rw [hsize, ← Nat.add_assoc]
  exact hopen.trans (congrArg (Cut.after _) hcut)

theorem cut {s : String} {ts : List Token} (h : Spells s.toList ts) :
    ∃ ls, Cut.ofText s = ⟨ls, none⟩ ∧ ls.map Lexeme.token = ts := by
  obtain ⟨ls, hls, hcut⟩ := h 0 [] (fun c hc => nomatch hc)
  rw [List.append_nil, Cut.ofChars.eq_def _ []] at hcut
  exact ⟨ls, by rw [Cut.ofText, hcut, Cut.after, List.append_nil], hls⟩

end Spells

/-! ## Words and literals -/

theorem spells_description {t : Terminal}
    (h : t ∉ [.dateTime, .guid, .name, .number, .quoted]) :
    Spells t.description.toList [⟨t, t.description.toList⟩] := .whole (whole_description h)

/-- All tokens come from a cut. -/
def Token.AllWhole (w : List Token) : Prop := ∀ t ∈ w, Whole t.terminal t.text

theorem spells_literal {t : Token} {v : Literal} (h : Denotes t v)
    (ht : Whole t.terminal t.text) :
    ∃ t', Spells v.display.toList [t'] ∧ Denotes t' v := by
  cases h with
  | quoted w =>
    refine ⟨⟨.quoted, (Text.quote (Text.unquote (String.ofList w))).toList⟩,
      .whole (whole_quote _), ?_⟩
    have hback := Denotes.quoted (Text.quote (Text.unquote (String.ofList w))).toList
    rwa [String.ofList_toList, Text.unquote_quote] at hback
  | trueWord w => exact ⟨_, spells_description (t := .trueWord) (by decide), .trueWord _⟩
  | falseWord w => exact ⟨_, spells_description (t := .falseWord) (by decide), .falseWord _⟩
  | number w => exact ⟨_, by simpa [Literal.display] using Spells.whole ht, .number w⟩
  | dateTime w => exact ⟨_, by simpa [Literal.display] using Spells.whole ht, .dateTime w⟩
  | guid w => exact ⟨_, by simpa [Literal.display] using Spells.whole ht, .guid w⟩
  | name w => exact ⟨_, by simpa [Literal.display] using Spells.whole ht, .name w⟩

/-- The items of a list with commas and blanks between them. -/
theorem spells_items {w : List Token} {vs : List Literal} (h : Items w vs)
    (hw : Token.AllWhole w) :
    ∃ v us w', vs = v :: us ∧ Items w' vs ∧
      Spells (v.display ++ Node.textOfRest (us.map .literal)).toList w' := by
  induction h with
  | @last t v ht =>
    obtain ⟨t', hspells, hdenotes⟩ := spells_literal ht (hw t List.mem_cons_self)
    refine ⟨v, [], [t'], rfl, .last hdenotes, ?_⟩
    rw [List.map_nil, Node.textOfRest, String.append_empty]
    exact hspells
  | @more t v c w vs ht _ ih =>
    obtain ⟨t', hspells, hdenotes⟩ := spells_literal ht (hw t List.mem_cons_self)
    obtain ⟨u, us, w', rfl, hitems, hrest⟩ :=
      ih fun t ht => hw t (List.mem_cons_of_mem _ (List.mem_cons_of_mem _ ht))
    refine ⟨v, u :: us, t' :: ⟨.comma, [',']⟩ :: w', rfl, .more hdenotes hitems, ?_⟩
    have htext : (v.display ++ Node.textOfRest ((u :: us).map .literal)).toList =
        v.display.toList ++
          ',' :: ' ' :: (u.display ++ Node.textOfRest (us.map .literal)).toList := by
      simp [Node.textOfRest, Node.text, String.toList_append]
    rw [htext]
    exact hspells.comma hrest

/-- An operator between two trees. -/
theorem spells_binary {op : BinaryOp} {m n : Node} {t : Terminal} {u v : List Token}
    (ht : t.description = op.symbol) (h : t ∉ [.dateTime, .guid, .name, .number, .quoted])
    (hu : Spells m.text.toList u) (hv : Spells n.text.toList v) :
    Spells (Node.mkBinary op m n).text.toList (u ++ ⟨t, op.symbol.toList⟩ :: v) := by
  have hop := spells_description h
  rw [ht] at hop
  have htext : (Node.mkBinary op m n).text.toList =
      m.text.toList ++ ' ' :: (op.symbol.toList ++ ' ' :: n.text.toList) := by
    simp [Node.mkBinary, Node.text, String.toList_append]
  rw [htext]
  exact hu.spaced (hop.spaced hv)

/-! ## Clauses -/

theorem spells_textOperator {o : List Token} {op : CallOp} (h : TextOperator o op) :
    ∃ o', Spells op.symbol.toList o' ∧ TextOperator o' op := by
  have hcontains := spells_description (t := .contains) (by decide)
  cases h with
  | contains k => exact ⟨_, hcontains, .contains _⟩
  | notContains j k =>
    exact ⟨_, (spells_description (t := .notWord) (by decide)).spaced hcontains,
      .notContains _ _⟩
  | startsWith k =>
    exact ⟨_, spells_description (t := .startsWith) (by decide), .startsWith _⟩
  | endsWith k => exact ⟨_, spells_description (t := .endsWith) (by decide), .endsWith _⟩

theorem spells_listOperator {o : List Token} {op : CallOp} (h : ListOperator o op) :
    ∃ o', Spells op.symbol.toList o' ∧ ListOperator o' op := by
  have hin := spells_description (t := .inWord) (by decide)
  cases h with
  | isIn k => exact ⟨_, hin, .isIn _⟩
  | notIn j k =>
    exact ⟨_, (spells_description (t := .notWord) (by decide)).spaced hin, .notIn _ _⟩

/-- An operator with its arguments in parentheses behind the field. -/
theorem spells_call {f : List Char} {op : CallOp} {v : Literal} {us : List Literal}
    {o w : List Token} (hf : Whole .name f) (ho : Spells op.symbol.toList o)
    (hw : Spells (v.display ++ Node.textOfRest (us.map .literal)).toList w) :
    Spells (callTree f op (v :: us)).text.toList
      (⟨.name, f⟩ :: (o ++ ⟨.leftParen, ['(']⟩ :: (w ++ [⟨.rightParen, [')']⟩]))) := by
  have htext : (callTree f op (v :: us)).text.toList =
      f ++ ' ' :: (op.symbol.toList ++
        ' ' :: '(' :: ((v.display ++ Node.textOfRest (us.map .literal)).toList ++ [')'])) := by
    simp [callTree, Node.mkCall, Node.text, String.toList_append]
  rw [htext]
  exact (Spells.whole hf).spaced (ho.spaced hw.closed.opened)

/-- An operator without arguments stands alone behind the field. -/
theorem spells_nullTest {f : List Char} {op : CallOp} {o : List Token} (hf : Whole .name f)
    (ho : Spells op.symbol.toList o) :
    Spells (callTree f op []).text.toList (⟨.name, f⟩ :: o) := by
  have htext : (callTree f op []).text.toList = f ++ ' ' :: op.symbol.toList := by
    simp [callTree, Node.mkCall, Node.text, String.toList_append]
  rw [htext]
  exact (Spells.whole hf).spaced ho

theorem spells_between {t u : Token} {low high : Literal} {f : List Char} (hf : Whole .name f)
    (hlow : Denotes t low) (hhigh : Denotes u high) (hw : Token.AllWhole [t, ⟨.comma, [',']⟩, u]) :
    ∃ w', Spells (callTree f .between [low, high]).text.toList w' ∧
      ClauseTree w' (callTree f .between [low, high]) := by
  have hitems : Items [t, ⟨.comma, [',']⟩, u] [low, high] := .more hlow (.last hhigh)
  obtain ⟨v, us, w', hvs, hitems, hspells⟩ := spells_items hitems hw
  obtain ⟨rfl, rfl⟩ := List.cons.inj hvs
  refine ⟨_, spells_call hf (spells_description (t := .betweenWord) (by decide)) hspells, ?_⟩
  cases hitems with
  | more hlow' hs =>
    cases hs with
    | last hhigh' => exact .between f _ _ _ _ hlow' hhigh'
    | more _ hnone => nomatch hnone

theorem spells_clause {w : List Token} {n : Node} (h : ClauseTree w n)
    (hw : Token.AllWhole w) : ∃ w', Spells n.text.toList w' ∧ ClauseTree w' n := by
  cases h with
  | @comparison t v f k c h =>
    have hf : Whole .name f := hw _ List.mem_cons_self
    obtain ⟨t', hspells, hdenotes⟩ := spells_literal h (hw t (by simp))
    refine ⟨_, ?_, .comparison f c.symbol.toList c hdenotes⟩
    have hfield : Spells (Node.field (String.ofList f)).text.toList [⟨.name, f⟩] := by
      rw [Node.text, String.toList_ofList]
      exact .whole hf
    have hvalue : Spells (Node.literal v).text.toList [t'] := by
      rw [Node.text]
      exact hspells
    exact spells_binary (t := .compare c) rfl (by cases c <;> decide) hfield hvalue
  | @text o a op v f ho ha =>
    have hf : Whole .name f := hw _ List.mem_cons_self
    obtain ⟨o', hop, ho'⟩ := spells_textOperator ho
    have harg : ∃ t, Denotes t v ∧ Whole t.terminal t.text := by
      cases ha with
      | bare h => exact ⟨_, h, hw _ (by simp)⟩
      | wrapped h => exact ⟨_, h, hw _ (by simp)⟩
    obtain ⟨t, ht, hwhole⟩ := harg
    obtain ⟨t', hspells, hdenotes⟩ := spells_literal ht hwhole
    refine ⟨⟨.name, f⟩ :: (o' ++ ⟨.leftParen, ['(']⟩ :: ([t'] ++ [⟨.rightParen, [')']⟩])),
      spells_call hf hop ?_, .text f ho' (.wrapped hdenotes)⟩
    rw [List.map_nil, Node.textOfRest, String.append_empty]
    exact hspells
  | @list o w op vs f l r ho h =>
    have hf : Whole .name f := hw _ List.mem_cons_self
    obtain ⟨o', hop, ho'⟩ := spells_listOperator ho
    obtain ⟨v, us, w', rfl, hitems, hspells⟩ := spells_items h fun t ht => hw t (by simp [ht])
    exact ⟨_, spells_call hf hop hspells, .list f _ _ ho' hitems⟩
  | @between t u low high f k l c r hl hh =>
    have hf : Whole .name f := hw _ List.mem_cons_self
    have ht : Whole t.terminal t.text := hw _ (by simp)
    have hu : Whole u.terminal u.text := hw _ (by simp)
    refine spells_between hf hl hh fun x hx => ?_
    simp only [List.mem_cons, List.not_mem_nil, or_false] at hx
    rcases hx with rfl | rfl | rfl
    · exact ht
    · exact whole_description (t := .comma) (by decide)
    · exact hu
  | isNull f j k =>
    have his := spells_description (t := .isWord) (by decide)
    have hnull := spells_description (t := .nullWord) (by decide)
    exact ⟨_, spells_nullTest (hw _ List.mem_cons_self) (his.spaced hnull), .isNull f _ _⟩
  | isNotNull f i j k =>
    have his := spells_description (t := .isWord) (by decide)
    have hnot := spells_description (t := .notWord) (by decide)
    have hnull := spells_description (t := .nullWord) (by decide)
    exact ⟨_, spells_nullTest (hw _ List.mem_cons_self) (his.spaced (hnot.spaced hnull)),
      .isNotNull f _ _ _⟩

/-! ## Phrases -/

/-- The text of a phrase whose tokens come from a cut spells a phrase with the same tree. -/
theorem spells_of_derives {p : Phrase} {w : List Token} {n : Node} (h : Derives p w n)
    (hw : Token.AllWhole w) : ∃ w', Spells n.text.toList w' ∧ Derives p w' n := by
  induction h with
  | @or u v m n k _ _ ihl ihr =>
    obtain ⟨u', hu, hm⟩ := ihl fun t ht => hw t (List.mem_append_left _ ht)
    obtain ⟨v', hv, hn⟩ :=
      ihr fun t ht => hw t (List.mem_append_right _ (List.mem_cons_of_mem _ ht))
    exact ⟨_, spells_binary (t := .orWord) rfl (by decide) hu hv, .or _ hm hn⟩
  | @and u v m n k _ _ ihl ihr =>
    obtain ⟨u', hu, hm⟩ := ihl fun t ht => hw t (List.mem_append_left _ ht)
    obtain ⟨v', hv, hn⟩ :=
      ihr fun t ht => hw t (List.mem_append_right _ (List.mem_cons_of_mem _ ht))
    exact ⟨_, spells_binary (t := .andWord) rfl (by decide) hu hv, .and _ hm hn⟩
  | @not w n k _ ih =>
    obtain ⟨w', hw', hn⟩ := ih fun t ht => hw t (List.mem_cons_of_mem _ ht)
    refine ⟨⟨.notWord, Terminal.notWord.description.toList⟩ :: w', ?_, .not _ hn⟩
    have htext : (Node.mkNot n).text.toList =
        Terminal.notWord.description.toList ++ ' ' :: n.text.toList := by
      simp [Node.mkNot, Node.text, String.toList_append, Terminal.description]
    rw [htext]
    exact (spells_description (by decide)).spaced hw'
  | @group w n l r _ ih =>
    obtain ⟨w', hw', hn⟩ := ih fun t ht => hw t (by simp [ht])
    refine ⟨⟨.leftParen, ['(']⟩ :: (w' ++ [⟨.rightParen, [')']⟩]), ?_, .group _ _ hn⟩
    have htext : (Node.mkGroup n).text.toList = '(' :: (n.text.toList ++ [')']) := by
      simp [Node.mkGroup, Node.text, String.toList_append]
    rw [htext]
    exact hw'.closed.opened
  | clause h =>
    obtain ⟨w', hw', hn⟩ := spells_clause h hw
    exact ⟨w', hw', .clause hn⟩
  | conjunction _ ih => exact (ih hw).imp fun w' h => ⟨h.1, .conjunction h.2⟩
  | negation _ ih => exact (ih hw).imp fun w' h => ⟨h.1, .negation h.2⟩
  | primary _ ih => exact (ih hw).imp fun w' h => ⟨h.1, .primary h.2⟩

theorem Cut.allWhole {s : String} {ls : List Lexeme} (h : Cut.ofText s = ⟨ls, none⟩) :
    Token.AllWhole (ls.map Lexeme.token) := by
  intro t ht
  obtain ⟨l, hl, rfl⟩ := List.mem_map.1 ht
  have hmem : l ∈ (Cut.ofChars 0 s.toList).lexemes := by
    rw [← Cut.ofText, h]
    exact hl
  exact Cut.whole_of_mem hmem

/-- A text that spells a sentence is read as its tree. -/
theorem Node.parse_of_spells {s : String} {w : List Token} {n : Node} (h : Spells s.toList w)
    (hsentence : Sentence w n) : Node.parse s = .ok n := by
  obtain ⟨ls, hcut, rfl⟩ := h.cut
  exact parse_eq_ok.2 ⟨ls, hcut, hsentence⟩

/-- A filter that was read is read again from its text, as the same tree with the same sizes. -/
theorem Node.parse_text {s : String} {n : Node} (h : Node.parse s = .ok n) :
    Node.parse n.text = .ok n := by
  obtain ⟨ls, hcut, hsentence⟩ := parse_eq_ok.1 h
  obtain ⟨w, hspells, hsentence⟩ := spells_of_derives hsentence (Cut.allWhole hcut)
  exact parse_of_spells hspells hsentence

/-- A filter with capitals in its keywords, few blanks and an escape. -/
def looseText : String := "NOT(a@Contains'it\\'s')OR b iN(1,TRUE)"

def looseTree : Node :=
  .mkBinary .or
    (.mkNot (.mkGroup (.mkCall .contains (.field "a") [.literal ⟨"it's", .string⟩])))
    (.mkCall .isIn (.field "b") [.literal ⟨"1", .number⟩, .literal ⟨"true", .boolean⟩])

theorem parse_looseText : Node.parse looseText = .ok looseTree := by
  have hcut : Cut.ofText looseText =
      ⟨[⟨.notWord, "NOT".toList, 0⟩, ⟨.leftParen, ['('], 3⟩, ⟨.name, ['a'], 4⟩,
        ⟨.contains, "@Contains".toList, 5⟩, ⟨.quoted, "'it\\'s'".toList, 14⟩,
        ⟨.rightParen, [')'], 21⟩, ⟨.orWord, "OR".toList, 22⟩, ⟨.name, ['b'], 25⟩,
        ⟨.inWord, "iN".toList, 27⟩, ⟨.leftParen, ['('], 29⟩, ⟨.number, ['1'], 30⟩,
        ⟨.comma, [','], 31⟩, ⟨.trueWord, "TRUE".toList, 32⟩, ⟨.rightParen, [')'], 36⟩], none⟩ := by
    decide +kernel
  rw [Node.parse, if_neg (by decide), hcut]
  rfl

theorem Node.parse_text_looseText :
    Node.parse looseText = .ok looseTree ∧
      Node.parse "not (a @contains ('it\\'s')) or b in (1, true)" = .ok looseTree :=
  ⟨parse_looseText, Node.parse_text parse_looseText⟩

end EntityQuery
