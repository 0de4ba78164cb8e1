import EntityQuery.Proofs.Sql.Expression

/-!
# The text of a condition reads as the condition

`Condition.tokens` are the tokens of the text of a condition, and the reader leads from them to
`Condition.expr`, the same tree with its tests and joins (`ofText?_text`). For this the columns must
be names (`IsColumn`) and no list may be empty.
-/

namespace EntityQuery.Sql

/-! ## What conditions stand for -/

namespace Test

/-- The column is a name, and a list has an item. -/
def Readable : Test → Prop
  | compare column _ _ => IsColumn column
  | like column _ _ => IsColumn column
  | isIn column _ ns => IsColumn column ∧ ns ≠ []

def expr : Test → Expr
  | compare column op n => .compare column op n
  | like column negated n => .like column negated n '\\'
  | isIn column negated ns => .isIn column negated ns

/-- The placeholders of a list with commas between them. -/
def itemTokens : List Nat → List Token
  | [] => []
  | [n] => [.placeholder n]
  | n :: ns => .placeholder n :: .comma :: itemTokens ns

/-- The word of an operator, behind NOT if it is negated. -/
def operatorTokens (negated : Bool) (k : Keyword) : List Token :=
  if negated then [.keyword .notWord, .keyword k] else [.keyword k]

def tokens : Test → List Token
  | compare column op n => [.name column, .compare op, .placeholder n]
  | like column negated n =>
    .name column :: (operatorTokens negated .likeWord ++
      [.placeholder n, .keyword .escapeWord, .text "\\"])
  | isIn column negated ns =>
    .name column :: (operatorTokens negated .inWord ++
      .leftParen :: (itemTokens ns ++ [.rightParen]))

end Test

namespace Condition

def Readable : Condition → Prop
  | coalesce t _ => t.Readable
  | isNull column _ => IsColumn column
  | and l r => l.Readable ∧ r.Readable
  | or l r => l.Readable ∧ r.Readable
  | not c => c.Readable

def expr : Condition → Expr
  | coalesce t onNull => .coalesce t.expr (.truth onNull)
  | isNull column negated => .isNull column negated
  | and l r => .and l.expr r.expr
  | or l r => .or l.expr r.expr
  | not c => .not c.expr

/-- Does the condition have parentheses around it? -/
def isJoin : Condition → Bool
  | and _ _ => true
  | or _ _ => true
  | _ => false

def truthToken (b : Bool) : Token := .keyword (if b then .trueWord else .falseWord)

def tokens : Condition → List Token
  | coalesce t onNull =>
    .keyword .coalesceWord :: .leftParen ::
      (t.tokens ++ [.comma, truthToken onNull, .rightParen])
  | isNull column negated =>
    .name column :: .keyword .isWord ::
      (if negated then [.keyword .notWord, .keyword .nullWord] else [.keyword .nullWord])
  | and l r => .leftParen :: (l.tokens ++ .keyword .andWord :: (r.tokens ++ [.rightParen]))
  | or l r => .leftParen :: (l.tokens ++ .keyword .orWord :: (r.tokens ++ [.rightParen]))
  | not c =>
    .keyword .notWord ::
      (if c.isJoin then c.tokens else .leftParen :: (c.tokens ++ [.rightParen]))

end Condition

/-! ## Cutting the text -/

namespace Lexes

open TokenReader

variable {a b : List Char} {u v : List Token}

theorem spaced (ha : Lexes a u) (hb : Lexes b v) : Lexes (a ++ ' ' :: b) (u ++ v) :=
  Cuts.spaced ha hb

theorem leftParen (hb : Lexes b v) : Lexes ('(' :: b) (.leftParen :: v) :=
  Cuts.sign (by decide) (fun _ => rfl) hb

/-- A closing parenthesis behind a piece. -/
theorem closed (ha : Lexes a u) : Lexes (a ++ [')']) (u ++ [.rightParen]) :=
  Cuts.append ha (Cuts.sign (by decide) (fun _ => rfl) cuts_nil) (by rintro c ⟨⟩; decide)

theorem enclosed (ha : Lexes a u) :
    Lexes ('(' :: (a ++ [')'])) (.leftParen :: (u ++ [.rightParen])) := ha.closed.leftParen

/-- A comma and a blank between two pieces. -/
theorem comma (ha : Lexes a u) (hb : Lexes b v) : Lexes (a ++ ',' :: ' ' :: b) (u ++ .comma :: v) :=
  Cuts.comma (fun _ => rfl) ha hb

/-- A word that opens a parenthesis. -/
theorem opening (ha : Lexes a u) (hb : Lexes b v) : Lexes (a ++ '(' :: b) (u ++ .leftParen :: v) :=
  Cuts.append ha hb.leftParen (by rintro c ⟨⟩; decide)

end Lexes

theorem lexes_operator (negated : Bool) (k : Keyword) :
    Lexes (if negated then Keyword.notWord.text.toList ++ ' ' :: k.text.toList else k.text.toList)
      (Test.operatorTokens negated k) := by
  cases negated with
  | false => exact lexes_keyword k
  | true => exact (lexes_keyword .notWord).spaced (lexes_keyword k)

theorem lexes_items {ns : List Nat} (h : ns ≠ []) :
    Lexes (", ".intercalate (ns.map placeholderText)).toList (Test.itemTokens ns) := by
  fun_induction Test.itemTokens ns with
  | case1 => exact absurd rfl h
  | case2 n =>
    rw [List.map_cons, List.map_nil, String.intercalate_singleton]
    exact lexes_placeholderText n
  | case3 n ns hne ih =>
    obtain ⟨k, ks, rfl⟩ := List.exists_cons_of_ne_nil hne
    have htext : (", ".intercalate ((n :: k :: ks).map placeholderText)).toList =
        (placeholderText n).toList ++
          ',' :: ' ' :: (", ".intercalate ((k :: ks).map placeholderText)).toList := by
      simp [String.intercalate_cons_cons, String.toList_append]
    rw [htext]
    exact (lexes_placeholderText n).comma (ih (List.cons_ne_nil k ks))

namespace Test

theorem lexes_text {t : Test} (h : t.Readable) : Lexes t.text.toList t.tokens := by
  cases t with
  | compare column op n =>
    have htext : (compare column op n).text.toList =
        (quoteName column).toList ++
          ' ' :: ((comparisonSymbol op).toList ++ ' ' :: (placeholderText n).toList) := by
      simp [text, String.toList_append]
    rw [htext]
    exact (lexes_quoteName h).spaced
      ((lexes_comparisonSymbol op).spaced (lexes_placeholderText n))
  | like column negated n =>
    have htext : (like column negated n).text.toList =
        (quoteName column).toList ++
          ' ' :: ((if negated then Keyword.notWord.text.toList ++ ' ' ::
              Keyword.likeWord.text.toList else Keyword.likeWord.text.toList) ++
            ' ' :: ((placeholderText n).toList ++
              ' ' :: (Keyword.escapeWord.text.toList ++ ' ' :: ['\'', '\\', '\'']))) := by
      cases negated <;> simp [text, String.toList_append, Keyword.text]
    rw [htext]
    exact (lexes_quoteName h).spaced ((lexes_operator negated .likeWord).spaced
      ((lexes_placeholderText n).spaced ((lexes_keyword .escapeWord).spaced lexes_escape)))
  | isIn column negated ns =>
    have htext : (isIn column negated ns).text.toList =
        (quoteName column).toList ++
          ' ' :: ((if negated then Keyword.notWord.text.toList ++ ' ' ::
              Keyword.inWord.text.toList else Keyword.inWord.text.toList) ++
            ' ' :: '(' :: ((", ".intercalate (ns.map placeholderText)).toList ++ [')'])) := by
      cases negated <;> simp [text, String.toList_append, Keyword.text]
    rw [htext]
    exact (lexes_quoteName h.1).spaced
      ((lexes_operator negated .inWord).spaced (lexes_items h.2).enclosed)

end Test

namespace Condition

theorem quoteName_ne_paren (column : String) :
    (quoteName column).toList.head? ≠ some '(' := by
  by_cases hplain : isPlain column.toList = true
  · rw [quoteName, if_pos hplain]
    intro hhead
    rw [isPlain, Bool.and_eq_true] at hplain
    exact absurd (List.all_eq_true.1 hplain.2 '(' (List.mem_of_mem_head? hhead)) (by decide)
  · rw [quoteName, if_neg hplain, String.toList_ofList]
    exact (by decide : some '"' ≠ some '(')

/-- Only joins begin with a parenthesis. -/
theorem head_text {c : Condition} (h : c.Readable) :
    c.text.toList.head? = some '(' ↔ c.isJoin = true := by
  cases c with
  | coalesce t onNull =>
    have hhead : (coalesce t onNull).text.toList.head? = some 'C' := by
      simp [text, String.toList_append]
    rw [hhead]
    exact ⟨fun h => absurd h (by decide), fun h => nomatch h⟩
  | isNull column negated =>
    have hne := quoteName_ne_paren column
    have hnil : (quoteName column).toList ≠ [] := by
      intro hnil
      unfold quoteName at hnil
      split at hnil
      · exact h.nonempty hnil
      · rw [String.toList_ofList] at hnil
        nomatch hnil
    obtain ⟨d, ds, hds⟩ := List.exists_cons_of_ne_nil hnil
    have hhead : (isNull column negated).text.toList.head? = some d := by
      simp [text, String.toList_append, hds]
    rw [hds] at hne
    rw [hhead]
    exact ⟨fun h => absurd h hne, fun h => nomatch h⟩
  | and l r =>
    refine ⟨fun _ => rfl, fun _ => ?_⟩
    simp [text, String.toList_append]
  | or l r =>
    refine ⟨fun _ => rfl, fun _ => ?_⟩
    simp [text, String.toList_append]
  | not c =>
    have hhead : (not c).text.toList.head? = some 'N' := by
      simp only [text]
      split <;> simp [String.toList_append]
    rw [hhead]
    exact ⟨fun h => absurd h (by decide), fun h => nomatch h⟩

theorem lexes_truth (b : Bool) : Lexes (boolText b).toList [truthToken b] := by
  cases b with
  | false => exact lexes_keyword .falseWord
  | true => exact lexes_keyword .trueWord

/-- Two conditions in parentheses, with a keyword and blanks between them. -/
theorem lexes_join {l r : Condition} {k : Keyword} {word : String}
    (hword : word.toList = ' ' :: (k.text.toList ++ [' '])) (hl : Lexes l.text.toList l.tokens)
    (hr : Lexes r.text.toList r.tokens) :
    Lexes ("(" ++ l.text ++ word ++ r.text ++ ")").toList
      (.leftParen :: (l.tokens ++ .keyword k :: (r.tokens ++ [.rightParen]))) := by
  have htext : ("(" ++ l.text ++ word ++ r.text ++ ")").toList =
      '(' :: ((l.text.toList ++ ' ' :: (k.text.toList ++ ' ' :: r.text.toList)) ++ [')']) := by
    simp [String.toList_append, hword]
  have htokens : (l.tokens ++ .keyword k :: (r.tokens ++ [.rightParen])) =
      (l.tokens ++ ([.keyword k] ++ r.tokens)) ++ [.rightParen] := by
    simp
  rw [htext, htokens]
  exact (hl.spaced ((lexes_keyword k).spaced hr)).enclosed

/-- What NOT is put to has parentheses around it, its own or new ones. -/
theorem lexes_not {c : Condition} (h : c.Readable) (hc : Lexes c.text.toList c.tokens) :
    Lexes (not c).text.toList (not c).tokens := by
  have hnot := lexes_keyword .notWord
  by_cases hjoin : c.isJoin = true
  · have htext : (not c).text.toList = Keyword.notWord.text.toList ++ ' ' :: c.text.toList := by
      simp [text, (head_text h).2 hjoin, String.toList_append, Keyword.text]
    rw [htext, tokens, if_pos hjoin]
    exact hnot.spaced hc
  · have hhead : ¬ c.text.toList.head? = some '(' := fun e => hjoin ((head_text h).1 e)
    have htext : (not c).text.toList =
        Keyword.notWord.text.toList ++ ' ' :: '(' :: (c.text.toList ++ [')']) := by
      simp [text, hhead, String.toList_append, Keyword.text]
    rw [htext, tokens, if_neg hjoin]
    exact hnot.spaced hc.enclosed

/-- The text of a condition is cut into its tokens. -/
theorem lexes_text {c : Condition} (h : c.Readable) : Lexes c.text.toList c.tokens := by
  induction c with
  | coalesce t onNull =>
    have htext : (coalesce t onNull).text.toList =
        Keyword.coalesceWord.text.toList ++
          '(' :: (t.text.toList ++ ',' :: ' ' :: ((boolText onNull).toList ++ [')'])) := by
      simp [text, String.toList_append, Keyword.text]
    rw [htext]
    exact (lexes_keyword .coalesceWord).opening
      ((Test.lexes_text h).comma (lexes_truth onNull).closed)
  | isNull column negated =>
    have htext : (isNull column negated).text.toList =
        (quoteName column).toList ++
          ' ' :: (Keyword.isWord.text.toList ++
            ' ' :: (if negated then Keyword.notWord.text.toList ++ ' ' ::
              Keyword.nullWord.text.toList else Keyword.nullWord.text.toList)) := by
      cases negated <;> simp [text, String.toList_append, Keyword.text]
    rw [htext]
    exact (lexes_quoteName h).spaced
      ((lexes_keyword .isWord).spaced (lexes_operator negated .nullWord))
  | and l r ihl ihr => exact lexes_join rfl (ihl h.1) (ihr h.2)
  | or l r ihl ihr => exact lexes_join rfl (ihl h.1) (ihr h.2)
  | not c ih =>
    have hc : c.Readable := h
    exact lexes_not hc (ih hc)

end Condition

/-! ## Reading the tokens -/

section Reading

variable (outer : List Level) (p : Level)

theorem steps?_items {column : String} {negated : Bool} {before ns : List Nat} (h : ns ≠ []) :
    ReadState.steps? ⟨outer, p, .test (.item column negated before)⟩ (Test.itemTokens ns) =
      some ⟨outer, p, .test (.items column negated (before ++ ns))⟩ := by
  fun_induction Test.itemTokens ns generalizing before with
  | case1 => exact absurd rfl h
  | case2 n => rfl
  | case3 n ns hne ih =>
    have hrest : ReadState.steps? ⟨outer, p, .test (.item column negated (before ++ [n]))⟩
        (Test.itemTokens ns) =
          some ⟨outer, p, .test (.items column negated (before ++ n :: ns))⟩ := by
      rw [ih hne, List.append_assoc, List.singleton_append]
    rw [ReadState.steps?_cons]
    exact hrest

theorem steps?_test {t : Test} (h : t.Readable) :
    ReadState.steps? ⟨outer, p, .operand⟩ t.tokens = some (.primary outer p t.expr) := by
  cases t with
  | compare column op n => rfl
  | like column negated n => cases negated <;> rfl
  | isIn column negated ns =>
    have hitems : ReadState.steps? ⟨outer, p, .test (.item column negated [])⟩
        (Test.itemTokens ns) = some ⟨outer, p, .test (.items column negated ns)⟩ :=
      steps?_items outer p h.2
    have hclose : ReadState.steps?
        ⟨outer, p, .test (.item column negated [])⟩ (Test.itemTokens ns ++ [.rightParen]) =
          some (.primary outer p (.isIn column negated ns)) :=
      (ReadState.steps?_append_of_eq hitems _).trans rfl
    cases negated <;> exact hclose

/-- The reader leads from the tokens of a condition to its expression, whatever was read before. -/
theorem steps?_condition {c : Condition} (h : c.Readable) :
    ReadState.steps? ⟨outer, p, .operand⟩ c.tokens = some (.primary outer p c.expr) := by
  induction c generalizing outer p with
  | coalesce t onNull =>
    have htest := steps?_test (p :: outer) (.ofOpening .first) h
    rw [Condition.tokens, ReadState.steps?_cons]
    refine (ReadState.steps?_append_of_eq htest _).trans ?_
    cases onNull <;> rfl
  | isNull column negated => cases negated <;> rfl
  | and l r ihl ihr =>
    have hl := ihl (p :: outer) (.ofOpening .paren) h.1
    have hr := ihr (p :: outer) ⟨.paren, none, some l.expr, 0⟩ h.2
    rw [Condition.tokens, ReadState.steps?_cons]
    refine (ReadState.steps?_append_of_eq hl _).trans ?_
    rw [ReadState.steps?_cons]
    exact (ReadState.steps?_append_of_eq hr _).trans rfl
  | or l r ihl ihr =>
    have hl := ihl (p :: outer) (.ofOpening .paren) h.1
    have hr := ihr (p :: outer) ⟨.paren, some l.expr, none, 0⟩ h.2
    rw [Condition.tokens, ReadState.steps?_cons]
    refine (ReadState.steps?_append_of_eq hl _).trans ?_
    rw [ReadState.steps?_cons]
    exact (ReadState.steps?_append_of_eq hr _).trans rfl
  | not c ih =>
    have hc : c.Readable := h
    rw [Condition.tokens, ReadState.steps?_cons]
    by_cases hjoin : c.isJoin = true
    · rw [if_pos hjoin]
      exact ih outer { p with nots := p.nots + 1 } hc
    · rw [if_neg hjoin]
      have hinner := ih ({ p with nots := p.nots + 1 } :: outer) (.ofOpening .paren) hc
      show ReadState.steps? ⟨outer, { p with nots := p.nots + 1 }, .operand⟩ _ = _
      rw [ReadState.steps?_cons]
      exact (ReadState.steps?_append_of_eq hinner _).trans rfl

end Reading

/-- The text of a condition reads as its expression. -/
theorem Condition.ofText?_text {c : Condition} (h : c.Readable) :
    Expr.ofText? c.text = some c.expr := by
  have htokens : Token.reader.tokens? c.text.toList = some c.tokens := (lexes_text h).alone
  rw [Expr.ofText?, htokens, Option.bind_some, Expr.ofTokens?, ReadState.start,
    steps?_condition [] (.ofOpening .start) h]
  rfl

end EntityQuery.Sql
