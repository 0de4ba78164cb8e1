import EntityQuery.Proofs.Filter.Classes
import EntityQuery.Proofs.Filter.Grammar
import EntityQuery.Proofs.Filter.Renaming

/-!
# Sentences in other letters

A token may be respelled (`Token.Recased`) in the case of its letters if it is a keyword, and by `R`
if it names a field. A name stands for a field exactly if an operator comes next
(`Grammar.Derives.fieldWords`); any other name is a literal and stays as it is. Respelling leads from
a sentence to a sentence, whose tree is the old one with other names for its fields
(`Grammar.Derives.recased`).
-/

namespace EntityQuery

variable {R : String → String → Prop}

/-- May it stand behind the name of a field? -/
def Terminal.isOperator (t : Terminal) : Bool := (Clause.operator? "" t).isSome

namespace Token

/-- Does an operator come first? -/
def beginsWithOperator (ts : List Token) : Bool := ts.head?.any (·.terminal.isOperator)

/-! ## Respelled tokens -/

/-- A token with other letters, where `next` stands behind it. -/
inductive Recased (R : String → String → Prop) (next : List Token) : Token → Token → Prop where
  | same (t : Token) : Recased R next t t
  | word {t : Terminal} {w w' : List Char} (ht : t.isFixed = true)
      (hw : w'.map Char.toLower = w.map Char.toLower) : Recased R next ⟨t, w⟩ ⟨t, w'⟩
  | field {w w' : List Char} (hnext : beginsWithOperator next = true)
      (hR : R (String.ofList w) (String.ofList w')) : Recased R next ⟨.name, w⟩ ⟨.name, w'⟩

/-- Tokens one by one in other letters, where `next` stands behind all of them. -/
inductive Recasing (R : String → String → Prop) (next : List Token) :
    List Token → List Token → Prop where
  | nil : Recasing R next [] []
  | cons {t t' : Token} {ts ts' : List Token} (h : Recased R (ts ++ next) t t')
      (hs : Recasing R next ts ts') : Recasing R next (t :: ts) (t' :: ts')

theorem Recased.exists_text {next : List Token} {t : Terminal} {w : List Char} {u : Token}
    (h : Recased R next ⟨t, w⟩ u) : ∃ w', u = ⟨t, w'⟩ := by
  cases h with
  | same => exact ⟨w, rfl⟩
  | word _ _ => exact ⟨_, rfl⟩
  | field _ _ => exact ⟨_, rfl⟩

/-- A name is respelled by the relation, whatever it stands for. -/
theorem Recased.exists_name (hrefl : ∀ a, R a a) {next : List Token} {f : List Char} {u : Token}
    (h : Recased R next ⟨.name, f⟩ u) :
    ∃ f', u = ⟨.name, f'⟩ ∧ R (String.ofList f) (String.ofList f') := by
  cases h with
  | same => exact ⟨f, rfl, hrefl _⟩
  | word ht _ => cases ht
  | field _ hR => exact ⟨_, rfl, hR⟩

namespace Recasing

variable {next : List Token}

theorem append {u v w : List Token} (h : Recasing R next (u ++ v) w) :
    ∃ u' v', w = u' ++ v' ∧ Recasing R (v ++ next) u u' ∧ Recasing R next v v' := by
  induction u generalizing w with
  | nil => exact ⟨[], w, rfl, .nil, h⟩
  | cons t u ih =>
    cases h with
    | @cons _ t' _ _ ht hs =>
      obtain ⟨u', v', rfl, hu, hv⟩ := ih hs
      have ht : Recased R (u ++ v ++ next) t t' := ht
      rw [List.append_assoc] at ht
      exact ⟨t' :: u', v', rfl, .cons ht hu, hv⟩

theorem cons_of_terminal {t : Terminal} {w : List Char} {ts us : List Token}
    (h : Recasing R next (⟨t, w⟩ :: ts) us) :
    ∃ w' ts', us = ⟨t, w'⟩ :: ts' ∧ Recasing R next ts ts' := by
  cases h with
  | cons ht hs =>
    obtain ⟨w', rfl⟩ := ht.exists_text
    exact ⟨w', _, rfl, hs⟩

theorem cons_of_name (hrefl : ∀ a, R a a) {f : List Char} {ts us : List Token}
    (h : Recasing R next (⟨.name, f⟩ :: ts) us) :
    ∃ f' ts', us = ⟨.name, f'⟩ :: ts' ∧ R (String.ofList f) (String.ofList f') ∧
      Recasing R next ts ts' := by
  cases h with
  | cons ht hs =>
    obtain ⟨f', rfl, hR⟩ := ht.exists_name hrefl
    exact ⟨f', _, rfl, hR, hs⟩

theorem singleton {t : Terminal} {w : List Char} {us : List Token}
    (h : Recasing R next [⟨t, w⟩] us) : ∃ w', us = [⟨t, w'⟩] := by
  obtain ⟨w', ts', rfl, hs⟩ := h.cons_of_terminal
  cases hs
  exact ⟨w', rfl⟩

end Recasing

end Token

namespace Grammar

open Token

/-! ## Respelled clauses -/

section Clauses

variable {next : List Token} (hnext : beginsWithOperator next = false)

include hnext

/-- A literal keeps its meaning, unless an operator behind it makes it a field. -/
theorem Denotes.recased {t t' : Token} {v : Literal} (h : Denotes t v)
    (ht : Recased R next t t') : Denotes t' v := by
  cases ht with
  | same => exact h
  | word hfixed _ =>
    cases h with
    | trueWord w => exact .trueWord _
    | falseWord w => exact .falseWord _
    | quoted w | number w | dateTime w | guid w | name w => cases hfixed
  | field hop _ =>
    rw [hnext] at hop
    cases hop

theorem Denotes.recasing {t : Token} {v : Literal} {us : List Token} (h : Denotes t v)
    (hu : Recasing R next [t] us) : ∃ t', us = [t'] ∧ Denotes t' v := by
  cases hu with
  | cons ht hs =>
    cases hs
    exact ⟨_, rfl, h.recased hnext ht⟩

theorem Items.recased {w us : List Token} {vs : List Literal} (h : Items w vs)
    (hu : Recasing R next w us) : Items us vs := by
  induction h generalizing us with
  | last h =>
    obtain ⟨t', rfl, h⟩ := h.recasing hnext hu
    exact .last h
  | more h _ ih =>
    cases hu with
    | cons ht hu =>
      obtain ⟨c', w', rfl, hw⟩ := hu.cons_of_terminal
      exact .more (h.recased rfl ht) (ih hw)

theorem OneArgument.recased {a us : List Token} {v : Literal} (h : OneArgument a v)
    (hu : Recasing R next a us) : OneArgument us v := by
  cases h with
  | bare h =>
    obtain ⟨t', rfl, h⟩ := h.recasing hnext hu
    exact .bare h
  | wrapped h =>
    obtain ⟨l', w', rfl, hw⟩ := hu.cons_of_terminal
    cases hw with
    | cons ht hr =>
      obtain ⟨r', rfl⟩ := hr.singleton
      exact .wrapped (h.recased rfl ht)

omit hnext

theorem TextOperator.recased {o us : List Token} {op : CallOp} (h : TextOperator o op)
    (hu : Recasing R next o us) : TextOperator us op := by
  cases h with
  | contains k =>
    obtain ⟨k', rfl⟩ := hu.singleton
    exact .contains k'
  | notContains j k =>
    obtain ⟨j', w', rfl, hk⟩ := hu.cons_of_terminal
    obtain ⟨k', rfl⟩ := hk.singleton
    exact .notContains j' k'
  | startsWith k =>
    obtain ⟨k', rfl⟩ := hu.singleton
    exact .startsWith k'
  | endsWith k =>
    obtain ⟨k', rfl⟩ := hu.singleton
    exact .endsWith k'

theorem ListOperator.recased {o us : List Token} {op : CallOp} (h : ListOperator o op)
    (hu : Recasing R next o us) : ListOperator us op := by
  cases h with
  | isIn k =>
    obtain ⟨k', rfl⟩ := hu.singleton
    exact .isIn k'
  | notIn j k =>
    obtain ⟨j', w', rfl, hk⟩ := hu.cons_of_terminal
    obtain ⟨k', rfl⟩ := hk.singleton
    exact .notIn j' k'

end Clauses

theorem renames_callTree {f f' : List Char} (h : R (String.ofList f) (String.ofList f'))
    (op : CallOp) (vs : List Literal) : (callTree f op vs).Renames R (callTree f' op vs) :=
  (Node.Renames.field h).mkCall op _

theorem ClauseTree.recased (hrefl : ∀ a, R a a) {w us next : List Token} {n : Node}
    (h : ClauseTree w n) (hnext : beginsWithOperator next = false)
    (hu : Recasing R next w us) : ∃ n', ClauseTree us n' ∧ n.Renames R n' := by
  cases h with
  | @comparison t v f k c h =>
    obtain ⟨f', w', rfl, hR, hw⟩ := hu.cons_of_name hrefl
    obtain ⟨k', a', rfl, ha⟩ := hw.cons_of_terminal
    obtain ⟨t', rfl, h⟩ := h.recasing hnext ha
    exact ⟨_, .comparison f' k' c h, (Node.Renames.field hR).mkBinary _ (.literal v)⟩
  | @text o a op v f ho ha =>
    obtain ⟨f', w', rfl, hR, hw⟩ := hu.cons_of_name hrefl
    obtain ⟨o', a', rfl, ho', ha'⟩ := hw.append
    exact ⟨_, .text f' (ho.recased ho') (ha.recased hnext ha'), renames_callTree hR op _⟩
  | @list o w op vs f l r ho h =>
    obtain ⟨f', w', rfl, hR, hw⟩ := hu.cons_of_name hrefl
    obtain ⟨o', b', rfl, ho', hb⟩ := hw.append
    obtain ⟨l', a', rfl, ha⟩ := hb.cons_of_terminal
    obtain ⟨i', e', rfl, hi, he⟩ := ha.append
    obtain ⟨r', rfl⟩ := he.singleton
    exact ⟨_, .list f' l' r' (ho.recased ho') (h.recased rfl hi), renames_callTree hR op _⟩
  | @between t u low high f k l c r hl hh =>
    obtain ⟨f', w', rfl, hR, hw⟩ := hu.cons_of_name hrefl
    obtain ⟨k', b', rfl, hb⟩ := hw.cons_of_terminal
    obtain ⟨l', a', rfl, ha⟩ := hb.cons_of_terminal
    cases ha with
    | cons ht ha =>
      obtain ⟨c', e', rfl, he⟩ := ha.cons_of_terminal
      cases he with
      | cons ht' he =>
        obtain ⟨r', rfl⟩ := he.singleton
        exact ⟨_, .between f' k' l' c' r' (hl.recased rfl ht) (hh.recased rfl ht'),
          renames_callTree hR _ _⟩
  | isNull f j k =>
    obtain ⟨f', w', rfl, hR, hw⟩ := hu.cons_of_name hrefl
    obtain ⟨j', a', rfl, ha⟩ := hw.cons_of_terminal
    obtain ⟨k', rfl⟩ := ha.singleton
    exact ⟨_, .isNull f' j' k', renames_callTree hR _ _⟩
  | isNotNull f i j k =>
    obtain ⟨f', w', rfl, hR, hw⟩ := hu.cons_of_name hrefl
    obtain ⟨i', b', rfl, hb⟩ := hw.cons_of_terminal
    obtain ⟨j', a', rfl, ha⟩ := hb.cons_of_terminal
    obtain ⟨k', rfl⟩ := ha.singleton
    exact ⟨_, .isNotNull f' i' j' k', renames_callTree hR _ _⟩

/-! ## Respelled phrases -/

/-- A phrase in other letters is a phrase. What stands behind it begins with no operator, and so it
is for each phrase within it. -/
theorem Derives.recased (hrefl : ∀ a, R a a) {p : Phrase} {w us next : List Token} {n : Node}
    (h : Derives p w n) (hnext : beginsWithOperator next = false) (hu : Recasing R next w us) :
    ∃ n', Derives p us n' ∧ n.Renames R n' := by
  induction h generalizing us next with
  | or k _ _ ihl ihr =>
    obtain ⟨u', b', rfl, hu', hb⟩ := hu.append
    obtain ⟨k', v', rfl, hv⟩ := hb.cons_of_terminal
    obtain ⟨m', hl, hm⟩ := ihl rfl hu'
    obtain ⟨n', hr, hn⟩ := ihr hnext hv
    exact ⟨_, .or k' hl hr, hm.mkBinary _ hn⟩
  | and k _ _ ihl ihr =>
    obtain ⟨u', b', rfl, hu', hb⟩ := hu.append
    obtain ⟨k', v', rfl, hv⟩ := hb.cons_of_terminal
    obtain ⟨m', hl, hm⟩ := ihl rfl hu'
    obtain ⟨n', hr, hn⟩ := ihr hnext hv
    exact ⟨_, .and k' hl hr, hm.mkBinary _ hn⟩
  | not k _ ih =>
    obtain ⟨k', v', rfl, hv⟩ := hu.cons_of_terminal
    obtain ⟨n', h, hn⟩ := ih hnext hv
    exact ⟨_, .not k' h, hn.mkNot⟩
  | group l r _ ih =>
    obtain ⟨l', b', rfl, hb⟩ := hu.cons_of_terminal
    obtain ⟨u', e', rfl, hu', he⟩ := hb.append
    obtain ⟨r', rfl⟩ := he.singleton
    obtain ⟨n', h, hn⟩ := ih rfl hu'
    exact ⟨_, .group l' r' h, hn.mkGroup⟩
  | clause h =>
    obtain ⟨n', h, hn⟩ := h.recased hrefl hnext hu
    exact ⟨n', .clause h, hn⟩
  | conjunction _ ih =>
    obtain ⟨n', h, hn⟩ := ih hnext hu
    exact ⟨n', .conjunction h, hn⟩
  | negation _ ih =>
    obtain ⟨n', h, hn⟩ := ih hnext hu
    exact ⟨n', .negation h, hn⟩
  | primary _ ih =>
    obtain ⟨n', h, hn⟩ := ih hnext hu
    exact ⟨n', .primary h, hn⟩

/-! ## Names of fields -/

end Grammar

namespace Token

/-- The names in front of operators, where `next` stands behind the tokens. -/
def fieldWords (next : List Token) : List Token → List String
  | [] => []
  | t :: ts =>
    if t.terminal = .name ∧ beginsWithOperator (ts ++ next) = true then
      String.ofList t.text :: fieldWords next ts
    else fieldWords next ts

variable {next : List Token}

theorem fieldWords_append (u v : List Token) :
    fieldWords next (u ++ v) = fieldWords (v ++ next) u ++ fieldWords next v := by
  induction u with
  | nil => rfl
  | cons t u ih =>
    rw [List.cons_append, fieldWords, fieldWords, ih, List.append_assoc]
    split <;> rfl

theorem fieldWords_name {f : List Char} {ts : List Token}
    (h : beginsWithOperator (ts ++ next) = true) :
    fieldWords next (⟨.name, f⟩ :: ts) = String.ofList f :: fieldWords next ts :=
  if_pos ⟨rfl, h⟩

theorem fieldWords_other {t : Terminal} {w : List Char} {ts : List Token} (h : t ≠ .name) :
    fieldWords next (⟨t, w⟩ :: ts) = fieldWords next ts :=
  if_neg fun hname => h hname.1

theorem fieldWords_before {t : Token} {ts : List Token}
    (h : beginsWithOperator (ts ++ next) = false) : fieldWords next (t :: ts) = fieldWords next ts :=
  if_neg fun hname => by rw [h] at hname; cases hname.2

end Token

namespace Grammar

open Token

variable {next : List Token}

theorem Items.fieldWords {w : List Token} {vs : List Literal} (h : Items w vs)
    (hnext : beginsWithOperator next = false) : fieldWords next w = [] := by
  induction h with
  | last h => exact fieldWords_before hnext
  | more h _ ih => rw [fieldWords_before rfl, fieldWords_other (by decide), ih]

theorem OneArgument.fieldWords {a : List Token} {v : Literal} (h : OneArgument a v)
    (hnext : beginsWithOperator next = false) : fieldWords next a = [] := by
  cases h with
  | bare h => exact (Items.last h).fieldWords hnext
  | wrapped h =>
    rw [fieldWords_other (by decide), fieldWords_before rfl, fieldWords_other (by decide),
      Token.fieldWords]

theorem TextOperator.fieldWords {o : List Token} {op : CallOp} (h : TextOperator o op)
    (next ts : List Token) :
    fieldWords next o = [] ∧ beginsWithOperator (o ++ ts) = true := by
  cases h <;> exact ⟨rfl, rfl⟩

theorem ListOperator.fieldWords {o : List Token} {op : CallOp} (h : ListOperator o op)
    (next ts : List Token) :
    fieldWords next o = [] ∧ beginsWithOperator (o ++ ts) = true := by
  cases h <;> exact ⟨rfl, rfl⟩

theorem fields_callTree (f : List Char) (op : CallOp) (vs : List Literal) :
    (callTree f op vs).fields = [String.ofList f] := by
  have hvs : Node.fieldsOfAll (vs.map .literal) = [] := by
    induction vs with
    | nil => rfl
    | cons v vs ih => exact ih
  rw [callTree, Node.mkCall, Node.fields, Node.fields, hvs, List.append_nil]

theorem ClauseTree.fieldWords {w : List Token} {n : Node} (h : ClauseTree w n)
    (hnext : beginsWithOperator next = false) : fieldWords next w = n.fields := by
  cases h with
  | comparison f k c h =>
    rw [fieldWords_name rfl, fieldWords_other (by simp), (Items.last h).fieldWords hnext]
    rfl
  | @text o a op v f ho ha =>
    obtain ⟨hwords, hbegins⟩ := ho.fieldWords (a ++ next) (a ++ next)
    rw [fields_callTree, fieldWords_name (by rwa [List.append_assoc]), fieldWords_append, hwords,
      ha.fieldWords hnext]
    rfl
  | @list o w op vs f l r ho h =>
    obtain ⟨hwords, hbegins⟩ :=
      ho.fieldWords (⟨.leftParen, l⟩ :: (w ++ [⟨.rightParen, r⟩]) ++ next)
        (⟨.leftParen, l⟩ :: (w ++ [⟨.rightParen, r⟩]) ++ next)
    rw [fields_callTree, fieldWords_name (by rwa [List.append_assoc]), fieldWords_append, hwords,
      List.nil_append, fieldWords_other (by decide), fieldWords_append, h.fieldWords rfl]
    rfl
  | between f k l c r hl hh =>
    rw [fields_callTree, fieldWords_name rfl, fieldWords_other (by decide),
      fieldWords_other (by decide), fieldWords_before rfl, fieldWords_other (by decide),
      fieldWords_before rfl, fieldWords_other (by decide), Token.fieldWords]
  | isNull f j k => rfl
  | isNotNull f i j k => rfl

/-- The fields of a tree are the names in front of operators, in the order of the text. -/
theorem Derives.fieldWords {p : Phrase} {w : List Token} {n : Node} (h : Derives p w n)
    (hnext : beginsWithOperator next = false) : fieldWords next w = n.fields := by
  induction h generalizing next with
  | or k _ _ ihl ihr | and k _ _ ihl ihr =>
    rw [fieldWords_append, fieldWords_other (by decide), ihl rfl, ihr hnext, Node.mkBinary,
      Node.fields]
  | not k _ ih => rw [fieldWords_other (by decide), ih hnext, Node.mkNot, Node.fields]
  | @group w n l r _ ih =>
    rw [fieldWords_other (by decide), fieldWords_append, ih rfl, fieldWords_other (by decide),
      Token.fieldWords, List.append_nil, Node.mkGroup, Node.fields]
  | clause h => exact h.fieldWords hnext
  | conjunction _ ih | negation _ ih | primary _ ih => exact ih hnext

end Grammar

end EntityQuery
