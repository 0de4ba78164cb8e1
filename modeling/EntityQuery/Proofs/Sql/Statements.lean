import EntityQuery.Proofs.Query.Checking
import EntityQuery.Proofs.Query.Sorting
import EntityQuery.Proofs.Sql.Parameters
import EntityQuery.Proofs.Sql.Placeholders
import EntityQuery.Sql.Statement

/-!
# Literals stay out of the statements

What a request compares with never reaches the text of a statement. Queries that differ only in the
literals of their filters have the same statements (`CompiledQuery.statements_eq`), and the
placeholders of a statement are numbered like the literals in the text of the filter
(`CompiledQuery.numbers_of_compile`).
-/

namespace EntityQuery

variable {α : Type} {m : FieldMap α}

/-! ## Statements without dollar signs -/

/-- No column has a dollar sign in its name, and neither has the table. -/
structure FieldMap.DollarFree (m : FieldMap α) : Prop where
  columns : ∀ f ∈ m.fields.entries, '$' ∉ f.column.toList
  table : '$' ∉ (Sql.tableName m.entity).toList

namespace Sql

theorem not_mem_append {s t : String} (hs : '$' ∉ s.toList) (ht : '$' ∉ t.toList) :
    '$' ∉ (s ++ t).toList := by
  rw [String.toList_append, List.mem_append, not_or]
  exact ⟨hs, ht⟩

theorem not_mem_intercalate {ss : List String} (h : ∀ s ∈ ss, '$' ∉ s.toList) :
    '$' ∉ (", ".intercalate ss).toList := by
  induction ss with
  | nil => decide
  | cons s ss ih =>
    cases ss with
    | nil =>
      rw [String.intercalate_singleton]
      exact h s List.mem_cons_self
    | cons t ss =>
      rw [String.intercalate_cons_cons]
      exact not_mem_append (not_mem_append (h s List.mem_cons_self) (by decide))
        (ih fun t ht => h t (List.mem_cons_of_mem s ht))

theorem not_mem_columnList {columns : List String} (h : ∀ s ∈ columns, '$' ∉ s.toList) :
    '$' ∉ (columnList columns).toList := by
  refine not_mem_intercalate fun s hs => ?_
  obtain ⟨column, hcolumn, rfl⟩ := List.mem_map.1 hs
  exact not_mem_quoteName (h column hcolumn)

theorem not_mem_toString (n : Nat) : '$' ∉ (toString n).toList := by
  have htext : (toString n).toList = Nat.toDigits 10 n := by simp
  rw [htext]
  exact not_mem_toDigits n

/-- The statement of the page in front of the WHERE clause. -/
def pageFront (m : FieldMap α) : String :=
  "SELECT " ++ columnList (m.fields.entries.map (·.column)) ++ "\nFROM " ++
    quoteName (tableName m.entity)

/-- The statement of the page behind the WHERE clause. -/
def pageBack (order : String) (page : PageRequest) : String :=
  order ++ "\nLIMIT " ++ toString page.limit ++ "\nOFFSET " ++ toString page.skip

/-- The statement of the count in front of the WHERE clause. -/
def countFront (m : FieldMap α) : String :=
  "SELECT COUNT(*)\nFROM " ++ quoteName (tableName m.entity)

theorem page_eq (q : CompiledQuery α) :
    (Statements.ofQuery q).page =
      pageFront q.map ++ whereClause q ++ pageBack (orderClause q) q.page := by
  have hassoc (front order limit size offset skip : String) :
      front ++ order ++ limit ++ size ++ offset ++ skip =
        front ++ (order ++ limit ++ size ++ offset ++ skip) := by
    simp only [String.append_assoc]
  exact hassoc _ _ _ _ _ _

theorem count_eq (q : CompiledQuery α) :
    (Statements.ofQuery q).count = countFront q.map ++ whereClause q := rfl

theorem parameters_eq (q : CompiledQuery α) :
    (Statements.ofQuery q).parameters = (q.predicate?.map Predicate.parameters).getD [] := rfl

theorem relations_eq (q : CompiledQuery α) :
    (Statements.ofQuery q).relations = (q.includes.resolve q.map).map relationStatement := rfl

attribute [ext] Statements

/-- The statements depend on the filter through its predicate only. -/
theorem Statements.ofQuery_congr {q q' : CompiledQuery α} (hmap : q'.map = q.map)
    (hpredicate : q'.predicate? = q.predicate?) (hsort : q'.sort = q.sort)
    (hincludes : q'.includes = q.includes) (hpage : q'.page = q.page) :
    Statements.ofQuery q' = Statements.ofQuery q := by
  have hclause : whereClause q' = whereClause q := by rw [whereClause, whereClause, hpredicate]
  have horder : orderClause q' = orderClause q := by rw [orderClause, orderClause, hsort]
  ext1
  · rw [page_eq, page_eq, hmap, hclause, horder, hpage]
  · rw [count_eq, count_eq, hmap, hclause]
  · rw [parameters_eq, parameters_eq, hpredicate]
  · rw [relations_eq, relations_eq, hmap, hincludes]

theorem not_mem_pageFront (h : m.DollarFree) : '$' ∉ (pageFront m).toList := by
  have hcolumns : '$' ∉ (columnList (m.fields.entries.map (·.column))).toList := by
    refine not_mem_columnList fun s hs => ?_
    obtain ⟨f, hf, rfl⟩ := List.mem_map.1 hs
    exact h.columns f hf
  exact not_mem_append (not_mem_append (not_mem_append (by decide) hcolumns) (by decide))
    (not_mem_quoteName h.table)

theorem not_mem_countFront (h : m.DollarFree) : '$' ∉ (countFront m).toList :=
  not_mem_append (by decide) (not_mem_quoteName h.table)

theorem not_mem_keyText {k : SortKey α} (h : '$' ∉ k.field.column.toList) :
    '$' ∉ (SortPlan.keyText k).toList := by
  have hword : '$' ∉ k.direction.sqlWord.toList := by cases k.direction <;> decide
  have hnulls : '$' ∉ (SortPlan.nullsText k.direction).toList := by cases k.direction <;> decide
  exact not_mem_append (not_mem_append (not_mem_append (not_mem_append (not_mem_quoteName h)
    (by decide)) hword) (by decide)) hnulls

/-- There is no ORDER BY clause, or it stands on a line of its own. -/
theorem orderClause_eq (q : CompiledQuery α) :
    orderClause q = "" ∨ orderClause q = "\nORDER BY " ++ q.sort.sqlText := by
  unfold orderClause
  split
  · exact .inl rfl
  · exact .inr rfl

theorem not_mem_orderClause {q : CompiledQuery α}
    (h : ∀ k ∈ q.sort.keys, '$' ∉ k.field.column.toList) : '$' ∉ (orderClause q).toList := by
  have hkeys : '$' ∉ q.sort.sqlText.toList := by
    refine not_mem_intercalate fun s hs => ?_
    obtain ⟨k, hk, rfl⟩ := List.mem_map.1 hs
    exact not_mem_keyText (h k hk)
  rcases orderClause_eq q with horder | horder
  · rw [horder]
    decide
  · rw [horder]
    exact not_mem_append (by decide) hkeys

theorem not_mem_pageBack {order : String} (h : '$' ∉ order.toList) (page : PageRequest) :
    '$' ∉ (pageBack order page).toList :=
  not_mem_append (not_mem_append (not_mem_append (not_mem_append h (by decide))
    (not_mem_toString _)) (by decide)) (not_mem_toString _)

/-- A new line follows the WHERE clause. -/
theorem endsDigits_pageBack (q : CompiledQuery α) :
    Reader.EndsDigits (pageBack (orderClause q) q.page).toList := by
  rcases orderClause_eq q with horder | horder
  · rw [horder, pageBack]
    simp only [String.toList_append]
    exact Reader.endsDigits_cons rfl _
  · rw [horder, pageBack]
    simp only [String.toList_append]
    exact Reader.endsDigits_cons rfl _

end Sql

namespace CompiledQuery

/-- The same query but for the literals of the filter and for what is shown. -/
structure SameOutline (q q' : CompiledQuery α) : Prop where
  filter : q.filter.map (·.node.outline q.map) = q'.filter.map (·.node.outline q'.map)
  sort : q.sort.keys = q'.sort.keys
  page : q.page = q'.page
  includes : q.includes = q'.includes

def tests (q : CompiledQuery α) : List FieldTest := (q.filter.map (·.node.tests)).getD []

/-- The placeholders `$1`, `$2`, .. up to the number of parameters. -/
def numbered (q : CompiledQuery α) : List String :=
  (List.range' 1 (Sql.Statements.ofQuery q).parameters.length).map Sql.placeholderText

/-- The placeholders of the statements stand for the literals of a text, in order. -/
structure Numbers (q : CompiledQuery α) (text : String) : Prop where
  page : (Sql.Statements.ofQuery q).page =
    Sql.pageFront q.map ++ Sql.whereClause q ++ Sql.pageBack (Sql.orderClause q) q.page
  count : (Sql.Statements.ofQuery q).count = Sql.countFront q.map ++ Sql.whereClause q
  whereClause : Sql.placeholders (Sql.whereClause q) = q.numbered
  wholePage : Sql.placeholders (Sql.Statements.ofQuery q).page = q.numbered
  wholeCount : Sql.placeholders (Sql.Statements.ofQuery q).count = q.numbered
  /-- The words of the text are the fields and literals of the tests. -/
  literals : (Cut.ofText text).lexemes.filterMap Clause.literal? = q.tests.flatMap FieldTest.words
  /-- Each literal has its parameter, in the same order. -/
  parameters : (Sql.Statements.ofQuery q).parameters.map some =
    q.tests.flatMap (FieldTest.parameters? q.map)

variable {c c' : QueryConfig} {r r' : QueryRequest} {q q' : CompiledQuery α}

theorem wellTyped_of_filter (hq : compile m c r = .ok q) {f : CompiledFilter α}
    (hf : q.filter = some f) : f.node.WellTyped m :=
  Node.wellTyped_of_validate
    (checkFilter_eq_ok (CompiledFilter.ofText_eq_ok (filter_eq_some hq hf)).1).2

theorem whereClause_eq (hq : compile m c r = .ok q) (hq' : compile m c' r' = .ok q')
    (h : q.SameOutline q') : Sql.whereClause q = Sql.whereClause q' := by
  have hfilter := h.filter
  rw [map_of_compile hq, map_of_compile hq'] at hfilter
  rw [Sql.whereClause, Sql.whereClause, predicate?, predicate?]
  cases hf : q.filter with
  | none =>
    rw [hf] at hfilter
    have hf' : q'.filter = none := Option.map_eq_none_iff.1 hfilter.symm
    rw [hf']
  | some f =>
    rw [hf] at hfilter
    obtain ⟨f', hf', houtline⟩ := Option.map_eq_some_iff.1 hfilter.symm
    have hp := (CompiledFilter.ofText_eq_ok (filter_eq_some hq hf)).2.1
    have hp' := (CompiledFilter.ofText_eq_ok (filter_eq_some hq' hf')).2.1
    have hcondition := (wellTyped_of_filter hq hf).conditionAfter_eq (wellTyped_of_filter hq' hf')
      houtline.symm hp hp' 0
    rw [hf']
    show "\nWHERE " ++ f.predicate.condition.text = "\nWHERE " ++ f'.predicate.condition.text
    rw [Predicate.condition, Predicate.condition, hcondition]

/-- The statements of queries with one outline differ only in the parameters. -/
theorem statements_eq (hq : compile m c r = .ok q) (hq' : compile m c' r' = .ok q')
    (h : q.SameOutline q') :
    (Sql.Statements.ofQuery q).page = (Sql.Statements.ofQuery q').page ∧
      (Sql.Statements.ofQuery q).count = (Sql.Statements.ofQuery q').count ∧
      (Sql.Statements.ofQuery q).relations = (Sql.Statements.ofQuery q').relations := by
  have hmap : q.map = q'.map := (map_of_compile hq).trans (map_of_compile hq').symm
  have hclause := whereClause_eq hq hq' h
  have horder : Sql.orderClause q = Sql.orderClause q' := by
    rw [Sql.orderClause, Sql.orderClause, SortPlan.sqlText, SortPlan.sqlText, h.sort]
  refine ⟨?_, ?_, ?_⟩
  · rw [Sql.page_eq, Sql.page_eq, hmap, hclause, horder, h.page]
  · rw [Sql.count_eq, Sql.count_eq, hmap, hclause]
  · rw [Sql.relations_eq, Sql.relations_eq, hmap, h.includes]

/-! ## Numbered placeholders -/

theorem holds_whereClause (hm : m.DollarFree) (hq : compile m c r = .ok q) :
    Sql.Holds (Sql.whereClause q).toList
      (List.range' 1 (Sql.Statements.ofQuery q).parameters.length) := by
  rw [Sql.whereClause, Sql.parameters_eq, predicate?]
  cases hf : q.filter with
  | none => rfl
  | some f =>
    have hp := (CompiledFilter.ofText_eq_ok (filter_eq_some hq hf)).2.1
    obtain ⟨p, hp', hfits⟩ := Node.fits_of_wellTyped (wellTyped_of_filter hq hf)
    obtain rfl : f.predicate = p := Except.ok.inj (hp.symm.trans hp')
    show Sql.Holds ("\nWHERE " ++ f.predicate.condition.text).toList
      (List.range' 1 f.predicate.parameters.length)
    rw [String.toList_append]
    exact (hfits.holds_condition hm.columns).behind (by decide)

theorem map_parameters (hq : compile m c r = .ok q) :
    (Sql.Statements.ofQuery q).parameters.map some =
      q.tests.flatMap (FieldTest.parameters? m) := by
  rw [Sql.parameters_eq, predicate?, tests]
  cases hf : q.filter with
  | none => rfl
  | some f =>
    have hp := (CompiledFilter.ofText_eq_ok (filter_eq_some hq hf)).2.1
    exact (wellTyped_of_filter hq hf).parameters_eq hp

theorem literals_eq (hq : compile m c r = .ok q) :
    (Cut.ofText (Text.trim (r.filter.getD ""))).lexemes.filterMap Clause.literal? =
      q.tests.flatMap FieldTest.words := by
  rw [tests]
  cases hf : q.filter with
  | none =>
    have hcut : Cut.ofText "" = ⟨[], none⟩ := Cut.ofChars_of_blank rfl 0
    rw [filter_eq_none hq hf, hcut]
    rfl
  | some f =>
    exact Node.literals_of_parse
      (checkFilter_eq_ok (CompiledFilter.ofText_eq_ok (filter_eq_some hq hf)).1).1

/-- The placeholders of the statements of a query are numbered in the order of the literals. -/
theorem numbers_of_compile (hm : m.DollarFree) (hq : compile m c r = .ok q) :
    q.Numbers (Text.trim (r.filter.getD "")) := by
  have hmap := map_of_compile hq
  have hfree : q.map.DollarFree := hmap ▸ hm
  have hclause := holds_whereClause hm hq
  have horder : '$' ∉ (Sql.orderClause q).toList := by
    refine Sql.not_mem_orderClause fun k hk => ?_
    rw [(compile_eq_ok hq).2] at hk
    exact hm.columns _ (SortPlan.mem_of_mem_keys_parse hk)
  have hpage := (hclause.before (Sql.endsDigits_pageBack q) (Sql.not_mem_pageBack horder _)).behind
    (Sql.not_mem_pageFront hfree)
  have hcount := hclause.behind (Sql.not_mem_countFront hfree)
  rw [← String.toList_append] at hcount
  rw [← String.toList_append, ← String.toList_append, ← String.append_assoc, ← Sql.page_eq] at hpage
  exact {
    page := Sql.page_eq q
    count := Sql.count_eq q
    whereClause := hclause.placeholders_eq
    wholePage := hpage.placeholders_eq
    wholeCount := hcount.placeholders_eq
    literals := literals_eq hq
    parameters := hmap ▸ map_parameters hq }

/-- Literals reach the parameters of the statements only. -/
theorem literals_only_in_parameters (m : FieldMap α) :
    (∀ (c c' : QueryConfig) (r r' : QueryRequest) (q q' : CompiledQuery α),
      compile m c r = .ok q → compile m c' r' = .ok q' → q.SameOutline q' →
        (Sql.Statements.ofQuery q).page = (Sql.Statements.ofQuery q').page ∧
        (Sql.Statements.ofQuery q).count = (Sql.Statements.ofQuery q').count ∧
        (Sql.Statements.ofQuery q).relations = (Sql.Statements.ofQuery q').relations) ∧
    (m.DollarFree → ∀ (c : QueryConfig) (r : QueryRequest) (q : CompiledQuery α),
      compile m c r = .ok q → q.Numbers (Text.trim (r.filter.getD ""))) :=
  ⟨fun _ _ _ _ _ _ => statements_eq, fun hm _ _ _ => numbers_of_compile hm⟩

/-- A search for parts, and one with SQL in the place of the texts. -/
def partSearch : QueryRequest where
  filter := some "name @contains axle or name in (bolt,'nut')"

def slySearch : QueryRequest where
  filter := some "NAME @contains '$9;--' or name in ('$1',x)"
  fields := some "name"

/-- The trees of the searches, and of all others that differ from them in names and literals. -/
def searchTree (name : String) (needle one other : Literal) : Node :=
  .mkBinary .or (.mkCall .contains (.field name) [.literal needle])
    (.mkCall .isIn (.field "name") [.literal one, .literal other])

theorem cut_searches :
    Cut.ofText "name @contains axle or name in (bolt,'nut')" =
        ⟨[⟨.name, "name".toList, 0⟩, ⟨.contains, "@contains".toList, 5⟩,
          ⟨.name, "axle".toList, 15⟩, ⟨.orWord, "or".toList, 20⟩, ⟨.name, "name".toList, 23⟩,
          ⟨.inWord, "in".toList, 28⟩, ⟨.leftParen, ['('], 31⟩, ⟨.name, "bolt".toList, 32⟩,
          ⟨.comma, [','], 36⟩, ⟨.quoted, "'nut'".toList, 37⟩, ⟨.rightParen, [')'], 42⟩], none⟩ ∧
      Cut.ofText "NAME @contains '$9;--' or name in ('$1',x)" =
        ⟨[⟨.name, "NAME".toList, 0⟩, ⟨.contains, "@contains".toList, 5⟩,
          ⟨.quoted, "'$9;--'".toList, 15⟩, ⟨.orWord, "or".toList, 23⟩, ⟨.name, "name".toList, 26⟩,
          ⟨.inWord, "in".toList, 31⟩, ⟨.leftParen, ['('], 34⟩, ⟨.quoted, "'$1'".toList, 35⟩,
          ⟨.comma, [','], 39⟩, ⟨.name, ['x'], 40⟩, ⟨.rightParen, [')'], 41⟩], none⟩ := by
  decide +kernel

theorem parse_partSearch : Node.parse "name @contains axle or name in (bolt,'nut')" =
    .ok (searchTree "name" ⟨"axle", .identifier⟩ ⟨"bolt", .identifier⟩ ⟨"nut", .string⟩) := by
  rw [Node.parse, if_neg (by decide), cut_searches.1]
  rfl

theorem parse_slySearch : Node.parse "NAME @contains '$9;--' or name in ('$1',x)" =
    .ok (searchTree "NAME" ⟨"$9;--", .string⟩ ⟨"$1", .string⟩ ⟨"x", .identifier⟩) := by
  rw [Node.parse, if_neg (by decide), cut_searches.2]
  rfl

/-- Both searches have one statement, whatever the texts look like. -/
theorem literals_only_in_parameters_slySearch :
    ∃ q q', compile partMap {} partSearch = .ok q ∧ compile partMap {} slySearch = .ok q' ∧
      q.SameOutline q' ∧
      (Sql.Statements.ofQuery q).page = (Sql.Statements.ofQuery q').page ∧
      partMap.DollarFree ∧ q'.Numbers (Text.trim (slySearch.filter.getD "")) := by
  have htrim : Text.trim (partSearch.filter.getD "") =
      "name @contains axle or name in (bolt,'nut')" := by decide
  have htrim' : Text.trim (slySearch.filter.getD "") =
      "NAME @contains '$9;--' or name in ('$1',x)" := by decide
  have hparse := parse_partSearch
  have hparse' := parse_slySearch
  rw [← htrim] at hparse
  rw [← htrim'] at hparse'
  obtain ⟨q, hq, hnode⟩ := exists_compile (m := partMap) (c := {}) (r := partSearch)
    (by rw [htrim]; decide) hparse (by rfl)
  obtain ⟨q', hq', hnode'⟩ := exists_compile (m := partMap) (c := {}) (r := slySearch)
    (by rw [htrim']; decide) hparse' (by rfl)
  have hfree : partMap.DollarFree := ⟨by decide, by decide⟩
  have houtline : q.SameOutline q' := by
    have hfilter : q.filter.map (·.node.outline partMap) =
        q'.filter.map (·.node.outline partMap) := by
      have htree := congrArg (Option.map (Node.outline partMap)) hnode
      have htree' := congrArg (Option.map (Node.outline partMap)) hnode'
      rw [Option.map_map] at htree htree'
      exact htree.trans htree'.symm
    rw [eq_of_compile hq, eq_of_compile hq']
    exact ⟨hfilter, rfl, rfl, rfl⟩
  obtain ⟨hsame, hnumbers⟩ := literals_only_in_parameters partMap
  exact ⟨q, q', hq, hq', houtline, (hsame _ _ _ _ q q' hq hq' houtline).1, hfree,
    hnumbers hfree _ _ q' hq'⟩

end CompiledQuery

end EntityQuery
