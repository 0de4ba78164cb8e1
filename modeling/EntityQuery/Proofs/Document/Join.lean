import EntityQuery.Document.Filter

/-!
# Joined document filters

Joining two filters puts their parts into one list. Whatever the two filters are, the parts of one
match when it does, so that `$and` means both, `$or` either one and `$nor` not. One operator joins
associatively.
-/

namespace EntityQuery

namespace Document

theorem allItemsMatch_append (doc : Json) (fs gs : List Json) :
    allItemsMatch doc (fs ++ gs) = (allItemsMatch doc fs && allItemsMatch doc gs) := by
  induction fs with
  | nil => rfl
  | cons f fs ih => simp only [List.cons_append, allItemsMatch, ih, Bool.and_assoc]

theorem someItemMatches_append (doc : Json) (fs gs : List Json) :
    someItemMatches doc (fs ++ gs) = (someItemMatches doc fs || someItemMatches doc gs) := by
  induction fs with
  | nil => rfl
  | cons f fs ih => simp only [List.cons_append, someItemMatches, ih, Bool.or_assoc]

theorem allMatch_eq (doc j : Json) : allMatch doc j = allItemsMatch doc (j.array?.getD []) := by
  cases j <;> rfl

theorem someMatch_eq (doc j : Json) : someMatch doc j = someItemMatches doc (j.array?.getD []) := by
  cases j <;> rfl

/-! ## Filters with one member -/

theorem filterMatches_and (doc j : Json) :
    filterMatches doc (.object [("$and", j)]) = allItemsMatch doc (j.array?.getD []) := by
  rw [← allMatch_eq]
  exact Bool.and_true _

theorem filterMatches_or (doc j : Json) :
    filterMatches doc (.object [("$or", j)]) = someItemMatches doc (j.array?.getD []) := by
  rw [← someMatch_eq]
  exact Bool.and_true _

theorem filterMatches_nor (doc j : Json) :
    filterMatches doc (.object [("$nor", j)]) = !someItemMatches doc (j.array?.getD []) := by
  rw [← someMatch_eq]
  exact Bool.and_true _

theorem filterMatches_path (doc : Json) {path : String} (h : path ≠ "$and" ∧ path ≠ "$or" ∧
    path ≠ "$nor") (condition : Json) :
    filterMatches doc (.object [(path, condition)]) =
      conditionHolds (valueAt doc path) condition := by
  simp only [filterMatches, clausesMatch, Bool.and_true]
  split
  · exact absurd rfl h.1
  · exact absurd rfl h.2.1
  · exact absurd rfl h.2.2
  · rfl

end Document

namespace DocumentFilter

open Document

theorem allItemsMatch_parts (doc j : Json) :
    allItemsMatch doc (parts "$and" j) = filterMatches doc j := by
  unfold parts
  split
  · rename_i key inner
    split
    · rename_i h
      rw [h, filterMatches_and]
    · simp only [allItemsMatch, Bool.and_true]
  · simp only [allItemsMatch, Bool.and_true]

theorem someItemMatches_parts (doc j : Json) :
    someItemMatches doc (parts "$or" j) = filterMatches doc j := by
  unfold parts
  split
  · rename_i key inner
    split
    · rename_i h
      rw [h, filterMatches_or]
    · simp only [someItemMatches, Bool.or_false]
  · simp only [someItemMatches, Bool.or_false]

theorem selects_join_and (f g : DocumentFilter) (doc : Json) :
    (join "$and" f g).selects doc = (f.selects doc && g.selects doc) := by
  rw [selects, join, filterMatches_and]
  show allItemsMatch doc (parts "$and" f.json ++ parts "$and" g.json) = _
  rw [allItemsMatch_append, allItemsMatch_parts, allItemsMatch_parts]
  rfl

theorem selects_join_or (f g : DocumentFilter) (doc : Json) :
    (join "$or" f g).selects doc = (f.selects doc || g.selects doc) := by
  rw [selects, join, filterMatches_or]
  show someItemMatches doc (parts "$or" f.json ++ parts "$or" g.json) = _
  rw [someItemMatches_append, someItemMatches_parts, someItemMatches_parts]
  rfl

theorem selects_negate (f : DocumentFilter) (doc : Json) :
    f.negate.selects doc = !f.selects doc := by
  rw [selects, negate, filterMatches_nor]
  show (!someItemMatches doc [f.json]) = _
  simp only [someItemMatches, Bool.or_false]
  rfl

/-! ## Joins of joins -/

theorem parts_join (op : String) (f g : DocumentFilter) :
    parts op (join op f g).json = parts op f.json ++ parts op g.json := by
  simp only [join, parts, if_true]
  rfl

theorem join_assoc (op : String) (f g h : DocumentFilter) :
    join op (join op f g) h = join op f (join op g h) := by
  have hparts : parts op (join op f g).json ++ parts op h.json =
      parts op f.json ++ parts op (join op g h).json := by
    rw [parts_join, parts_join, List.append_assoc]
  rw [join, hparts]
  rfl

end DocumentFilter

end EntityQuery
