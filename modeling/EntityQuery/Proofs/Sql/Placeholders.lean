import EntityQuery.Proofs.Sql.Agreement
import Mathlib.Data.List.TakeWhile

/-!
# Placeholders in texts of SQL

`placeholders` finds the placeholders of a text without reading it as SQL: each dollar sign with
the digits behind it. In the text of a condition whose columns have no dollar signs these are the
placeholders of the condition (`Condition.placeholders_text`), and in the condition of a predicate
they are numbered in order, one for each parameter (`Predicate.placeholders_conditionAfter`).
-/

namespace EntityQuery

variable {α : Type} {m : FieldMap α}

namespace Sql

/-! ## Dollar signs -/

/-- The dollar signs of a text, each with the digits that follow it. -/
def dollars : List Char → List (List Char)
  | [] => []
  | c :: cs => if c = '$' then ('$' :: cs.takeWhile Char.isDigit) :: dollars cs else dollars cs

def placeholders (sql : String) : List String := (dollars sql.toList).map String.ofList

theorem dollars_append_of_not_mem {a : List Char} (h : '$' ∉ a) (b : List Char) :
    dollars (a ++ b) = dollars b := by
  induction a with
  | nil => rfl
  | cons c a ih =>
    rw [List.mem_cons, not_or] at h
    rw [List.cons_append, dollars, if_neg (Ne.symm h.1), ih h.2]

theorem dollars_of_not_mem {a : List Char} (h : '$' ∉ a) : dollars a = [] := by
  rw [← List.append_nil a, dollars_append_of_not_mem h]
  rfl

/-- Texts one behind the other have the placeholders of both, unless the number of the last one
goes on. -/
theorem dollars_append (a : List Char) {b : List Char} (h : Reader.EndsDigits b) :
    dollars (a ++ b) = dollars a ++ dollars b := by
  have htake : b.takeWhile Char.isDigit = [] := by
    cases b with
    | nil => rfl
    | cons c b => exact List.takeWhile_cons_of_neg (by rw [h c rfl]; decide)
  induction a with
  | nil => rfl
  | cons c a ih =>
    have hdigits : (a ++ b).takeWhile Char.isDigit = a.takeWhile Char.isDigit := by
      rw [List.takeWhile_append, htake, List.append_nil]
      split
      · rename_i hall
        exact ((List.takeWhile_prefix _).eq_of_length hall).symm
      · rfl
    rw [List.cons_append, dollars, dollars, ih, hdigits]
    split
    · rfl
    · rfl

theorem toList_placeholderText (n : Nat) :
    (placeholderText n).toList = '$' :: Nat.toDigits 10 n := by
  simp [placeholderText, String.toList_append]

theorem not_mem_toDigits (n : Nat) : '$' ∉ Nat.toDigits 10 n := fun h =>
  absurd (Nat.isDigit_of_mem_toDigits (by decide) (by decide) h) (by decide)

theorem dollars_placeholderText (n : Nat) :
    dollars (placeholderText n).toList = [(placeholderText n).toList] := by
  have hall : (Nat.toDigits 10 n).takeWhile Char.isDigit = Nat.toDigits 10 n :=
    List.takeWhile_eq_self_iff.2 fun c hc => Nat.isDigit_of_mem_toDigits (by decide) (by decide) hc
  rw [toList_placeholderText, dollars, if_pos rfl, hall, dollars_of_not_mem (not_mem_toDigits n)]

/-! ## Names -/

theorem mem_of_mem_doubleQuotes {c : Char} {cs : List Char} (h : c ∈ doubleQuotes cs) :
    c ∈ cs := by
  induction cs with
  | nil => exact h
  | cons d cs ih =>
    unfold doubleQuotes at h
    split at h
    · rename_i hd
      rw [hd]
      simp only [List.mem_cons] at h ⊢
      exact h.elim .inl fun h => h.imp_right ih
    · exact (List.mem_cons.1 h).elim (fun h => h ▸ List.mem_cons_self)
        fun h => List.mem_cons_of_mem d (ih h)

/-- Quotes are no dollar signs. -/
theorem not_mem_quoteName {s : String} (h : '$' ∉ s.toList) : '$' ∉ (quoteName s).toList := by
  unfold quoteName
  split
  · exact h
  · rw [String.toList_ofList]
    intro hmem
    rcases List.mem_append.1 hmem with hmem | hmem
    · rcases List.mem_cons.1 hmem with hmem | hmem
      · cases hmem
      · exact h (mem_of_mem_doubleQuotes hmem)
    · cases List.mem_singleton.1 hmem

/-! ## Conditions -/

/-- A piece of text with certain placeholders and no other dollar signs. -/
def Holds (cs : List Char) (ns : List Nat) : Prop :=
  dollars cs = ns.map fun n => (placeholderText n).toList

namespace Holds

theorem placeholder (n : Nat) : Holds (placeholderText n).toList [n] := dollars_placeholderText n

/-- Text without dollar signs in front. -/
theorem behind {a b : List Char} {ns : List Nat} (ha : '$' ∉ a) (hb : Holds b ns) :
    Holds (a ++ b) ns := (dollars_append_of_not_mem ha b).trans hb

theorem append {a b : List Char} {ns ks : List Nat} (ha : Holds a ns) (hb : Holds b ks)
    (h : Reader.EndsDigits b) : Holds (a ++ b) (ns ++ ks) := by
  rw [Holds, dollars_append a h, ha, hb, List.map_append]

/-- Text without dollar signs behind. -/
theorem before {a b : List Char} {ns : List Nat} (ha : Holds a ns) (h : Reader.EndsDigits b)
    (hb : '$' ∉ b) : Holds (a ++ b) ns := by
  rw [Holds, dollars_append a h, dollars_of_not_mem hb, List.append_nil]
  exact ha

/-- The placeholders of a list with commas between them. -/
theorem items (ns : List Nat) : Holds (", ".intercalate (ns.map placeholderText)).toList ns := by
  induction ns with
  | nil => rfl
  | cons n ns ih =>
    cases ns with
    | nil =>
      rw [List.map_cons, List.map_nil, String.intercalate_singleton]
      exact .placeholder n
    | cons k ks =>
      have htext : (", ".intercalate ((n :: k :: ks).map placeholderText)).toList =
          (placeholderText n).toList ++
            ([',', ' '] ++ (", ".intercalate ((k :: ks).map placeholderText)).toList) := by
        simp [String.intercalate_cons_cons, String.toList_append]
      rw [htext]
      exact (Holds.placeholder n).append (ih.behind (by decide)) (Reader.endsDigits_cons rfl _)

theorem placeholders_eq {s : String} {ns : List Nat} (h : Holds s.toList ns) :
    placeholders s = ns.map placeholderText := by
  rw [placeholders, h, List.map_map]
  exact List.map_congr_left fun n _ => String.ofList_toList

end Holds

namespace Test

def column : Test → String
  | compare column _ _ | like column _ _ | isIn column _ _ => column

/-- The placeholders of a test, in order. -/
def placeholders : Test → List Nat
  | compare _ _ n | like _ _ n => [n]
  | isIn _ _ ns => ns

theorem holds_text (t : Test) (h : '$' ∉ t.column.toList) : Holds t.text.toList t.placeholders := by
  have hname := not_mem_quoteName h
  cases t with
  | compare column op n =>
    have htext : (compare column op n).text.toList =
        (quoteName column).toList ++
          ((' ' :: (comparisonSymbol op).toList ++ [' ']) ++ (placeholderText n).toList) := by
      simp [text, String.toList_append]
    have hop : '$' ∉ ' ' :: (comparisonSymbol op).toList ++ [' '] := by cases op <;> decide
    rw [htext]
    exact ((Holds.placeholder n).behind hop).behind hname
  | like column negated n =>
    have htext : (like column negated n).text.toList =
        (quoteName column).toList ++ ((if negated then " NOT LIKE " else " LIKE ").toList ++
          ((placeholderText n).toList ++ " ESCAPE '\\'".toList)) := by
      simp [text, String.toList_append]
    have hop : '$' ∉ (if negated then " NOT LIKE " else " LIKE ").toList := by
      cases negated <;> decide
    rw [htext]
    exact (((Holds.placeholder n).before (Reader.endsDigits_cons rfl _) (by decide)).behind
      hop).behind hname
  | isIn column negated ns =>
    have htext : (isIn column negated ns).text.toList =
        (quoteName column).toList ++ ((if negated then " NOT IN (" else " IN (").toList ++
          ((", ".intercalate (ns.map placeholderText)).toList ++ [')'])) := by
      simp [text, String.toList_append]
    have hop : '$' ∉ (if negated then " NOT IN (" else " IN (").toList := by
      cases negated <;> decide
    rw [htext]
    exact (((Holds.items ns).before (Reader.endsDigits_cons rfl _) (by decide)).behind hop).behind
      hname

end Test

namespace Condition

def columns : Condition → List String
  | coalesce t _ => [t.column]
  | isNull column _ => [column]
  | and l r | or l r => l.columns ++ r.columns
  | not c => c.columns

/-- The placeholders of a condition from left to right. -/
def placeholders : Condition → List Nat
  | coalesce t _ => t.placeholders
  | isNull _ _ => []
  | and l r | or l r => l.placeholders ++ r.placeholders
  | not c => c.placeholders

/-- Two conditions in parentheses with a word between them. -/
theorem holds_join {word l r : String} {ns ks : List Nat} (hl : Holds l.toList ns)
    (hr : Holds r.toList ks) (hword : '$' ∉ word.toList)
    (hends : ∀ b, Reader.EndsDigits (word.toList ++ b)) :
    Holds ("(" ++ l ++ word ++ r ++ ")").toList (ns ++ ks) := by
  have htext : ("(" ++ l ++ word ++ r ++ ")").toList =
      ['('] ++ (l.toList ++ (word.toList ++ (r.toList ++ [')']))) := by
    simp [String.toList_append]
  have hright := hr.before (Reader.endsDigits_cons rfl []) (by decide : '$' ∉ [')'])
  rw [htext]
  exact (hl.append (hright.behind hword) (hends _)).behind (by decide)

/-- The text of a condition on columns without dollar signs has its placeholders and no others. -/
theorem holds_text (c : Condition) (h : ∀ s ∈ c.columns, '$' ∉ s.toList) :
    Holds c.text.toList c.placeholders := by
  induction c with
  | coalesce t onNull =>
    have htext : (coalesce t onNull).text.toList =
        "COALESCE(".toList ++ (t.text.toList ++
          (", ".toList ++ (boolText onNull ++ ")").toList)) := by
      simp [text, String.toList_append]
    have hnull : '$' ∉ ", ".toList ++ (boolText onNull ++ ")").toList := by
      cases onNull <;> decide
    rw [htext]
    exact ((t.holds_text (h _ (List.mem_singleton_self _))).before (Reader.endsDigits_cons rfl _)
      hnull).behind (by decide)
  | isNull column negated =>
    have hnull : '$' ∉ (if negated then " IS NOT NULL" else " IS NULL").toList := by
      cases negated <;> decide
    rw [text, String.toList_append]
    exact Holds.behind (not_mem_quoteName (h _ (List.mem_singleton_self _)))
      (dollars_of_not_mem hnull)
  | and l r ihl ihr =>
    exact holds_join (ihl fun s hs => h s (List.mem_append_left _ hs))
      (ihr fun s hs => h s (List.mem_append_right _ hs)) (by decide)
      fun _ => Reader.endsDigits_cons rfl _
  | or l r ihl ihr =>
    exact holds_join (ihl fun s hs => h s (List.mem_append_left _ hs))
      (ihr fun s hs => h s (List.mem_append_right _ hs)) (by decide)
      fun _ => Reader.endsDigits_cons rfl _
  | not c ih =>
    have hinner := ih h
    have hclosed := hinner.before (Reader.endsDigits_cons rfl []) (by decide : '$' ∉ [')'])
    rw [text]
    split
    · rw [String.toList_append]
      exact hinner.behind (by decide)
    · rw [String.toList_append, String.toList_append, List.append_assoc]
      exact hclosed.behind (by decide)

end Condition

end Sql

/-! ## Conditions of predicates -/

namespace Predicate

/-- The placeholders are numbered from left to right, one for each parameter. -/
theorem placeholders_conditionAfter (p : Predicate α) (k : Nat) :
    (p.conditionAfter k).1.placeholders = List.range' (k + 1) p.parameters.length := by
  induction p generalizing k with
  | compare f op v => rfl
  | text f test needle negated => rfl
  | isIn f vs negated =>
    rw [parameters, List.length_map]
    rfl
  | isNull f negated => rfl
  | and l r ihl ihr =>
    rw [conditionAfter_and, parameters, List.length_append, Sql.Condition.placeholders, ihl, ihr,
      Nat.add_right_comm, List.range'_append_1]
  | or l r ihl ihr =>
    rw [conditionAfter_or, parameters, List.length_append, Sql.Condition.placeholders, ihl, ihr,
      Nat.add_right_comm, List.range'_append_1]
  | not p ih => exact ih k

/-- The columns of a condition are those of fields of the map. -/
theorem Fits.mem_of_mem_columns {p : Predicate α} (h : p.Fits m) {k : Nat} {s : String}
    (hs : s ∈ (p.conditionAfter k).1.columns) : ∃ f ∈ m.fields.entries, f.column = s := by
  induction h generalizing k with
  | compare op hf hv => exact ⟨_, hf, (List.mem_singleton.1 hs).symm⟩
  | text test needle negated hf ht => exact ⟨_, hf, (List.mem_singleton.1 hs).symm⟩
  | isIn negated hf hne hvs => exact ⟨_, hf, (List.mem_singleton.1 hs).symm⟩
  | isNull negated hf => exact ⟨_, hf, (List.mem_singleton.1 hs).symm⟩
  | and hl hr ihl ihr =>
    rw [conditionAfter_and] at hs
    exact (List.mem_append.1 hs).elim ihl ihr
  | or hl hr ihl ihr =>
    rw [conditionAfter_or] at hs
    exact (List.mem_append.1 hs).elim ihl ihr
  | not hp ih => exact ih hs

/-- The text of the condition has one placeholder for each parameter, in order. -/
theorem Fits.holds_condition (hm : ∀ f ∈ m.fields.entries, '$' ∉ f.column.toList)
    {p : Predicate α} (h : p.Fits m) :
    Sql.Holds p.condition.text.toList (List.range' 1 p.parameters.length) := by
  have htext := p.condition.holds_text fun s hs => by
    obtain ⟨f, hf, rfl⟩ := h.mem_of_mem_columns hs
    exact hm f hf
  rw [condition, placeholders_conditionAfter] at htext
  exact htext

end Predicate

end EntityQuery
