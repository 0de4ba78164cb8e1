import EntityQuery.Proofs.Lists
import EntityQuery.Proofs.Query.Preorder
import EntityQuery.Proofs.Sql.Ordering

/-!
# Plans as ORDER BY clauses

The text of a plan is read key by key (`ofText?_sqlText`), each as its column, its direction and its
place for nulls if the column is written as a name (`readItem?_eq_iff`). By these keys rows stand in
the order of the plan (`compare?_keys`). A column whose name is a number is taken for a position.
-/

namespace EntityQuery

/-! ## The clause of a plan -/

namespace SortPlan

open Sql

variable {α : Type}

/-- A key by its column, nulls where its direction has them. -/
def orderItem (k : SortKey α) : OrderItem :=
  ⟨.column k.field.column, k.direction, k.direction = .asc⟩

/-- The words behind the name of a key. -/
def wordTokens : SortDirection → List OrderToken
  | .asc => [.word "asc", .word "nulls", .word "first"]
  | .desc => [.word "desc", .word "nulls", .word "last"]

def keyTokens? (k : SortKey α) : Option (List OrderToken) :=
  (nameTokens? k.field.column).map (· ++ wordTokens k.direction)

/-- How the text of a key is read. -/
def readItem? (k : SortKey α) : Option OrderItem := (keyTokens? k).bind OrderItem.ofTokens?

theorem cuts_sqlWord (d : SortDirection) :
    OrderToken.reader.Cuts d.sqlWord.toList
      (some [.word (match d with | .asc => "asc" | .desc => "desc")]) := by
  cases d <;> exact TokenReader.cuts_word (by decide) (by decide)

theorem cuts_nullsText (d : SortDirection) :
    OrderToken.reader.Cuts (nullsText d).toList
      (some [.word "nulls", .word (match d with | .asc => "first" | .desc => "last")]) := by
  have hnulls : OrderToken.reader.Cuts "NULLS".toList (some [.word "nulls"]) :=
    TokenReader.cuts_word (by decide) (by decide)
  have hplace : OrderToken.reader.Cuts (match d with | .asc => "FIRST" | .desc => "LAST").toList
      (some [.word (match d with | .asc => "first" | .desc => "last")]) := by
    cases d <;> exact TokenReader.cuts_word (by decide) (by decide)
  have htext : (nullsText d).toList =
      "NULLS".toList ++ ' ' :: (match d with | .asc => "FIRST" | .desc => "LAST").toList := by
    cases d <;> rfl
  rw [htext]
  exact hnulls.spaced hplace

theorem cuts_keyText (k : SortKey α) :
    OrderToken.reader.Cuts (keyText k).toList (keyTokens? k) := by
  have htext : (keyText k).toList = (quoteName k.field.column).toList ++
      ' ' :: (k.direction.sqlWord.toList ++ ' ' :: (nullsText k.direction).toList) := by
    simp [keyText, String.toList_append]
  have htokens : keyTokens? k = inFront (nameTokens? k.field.column)
      (inFront (some [.word (match k.direction with | .asc => "asc" | .desc => "desc")])
        (some [.word "nulls",
          .word (match k.direction with | .asc => "first" | .desc => "last")])) := by
    rw [keyTokens?]
    cases k.direction <;> cases nameTokens? k.field.column <;> rfl
  rw [htext, htokens]
  exact (cuts_quoteName _).spaced ((cuts_sqlWord _).spaced (cuts_nullsText _))

theorem cuts_keys (k : SortKey α) (ks : List (SortKey α)) :
    OrderToken.reader.Cuts (", ".intercalate ((k :: ks).map keyText)).toList
      (((k :: ks).mapM keyTokens?).map [OrderToken.comma].intercalate) := by
  induction ks generalizing k with
  | nil =>
    have htokens : ([k].mapM keyTokens?).map [OrderToken.comma].intercalate = keyTokens? k := by
      cases h : keyTokens? k <;> simp [h]
    rw [htokens, List.map_singleton, String.intercalate_singleton]
    exact cuts_keyText k
  | cons k' ks ih =>
    have htext : (", ".intercalate ((k :: k' :: ks).map keyText)).toList = (keyText k).toList ++
        ',' :: ' ' :: (", ".intercalate ((k' :: ks).map keyText)).toList := by
      simp [String.intercalate_cons_cons, String.toList_append]
    have htokens : ((k :: k' :: ks).mapM keyTokens?).map [OrderToken.comma].intercalate =
        inFront (keyTokens? k) (inFront (some [.comma])
          (((k' :: ks).mapM keyTokens?).map [OrderToken.comma].intercalate)) := by
      rw [List.mapM_cons, List.mapM_cons]
      cases keyTokens? k <;> cases keyTokens? k' <;> cases ks.mapM keyTokens? <;>
        simp [inFront, List.intercalate_cons_cons]
    rw [htext, htokens]
    exact (cuts_keyText k).comma (fun _ => rfl) (ih k')

/-- The tokens of a key hold no comma, and there are some. -/
theorem keyTokens?_eq_some {k : SortKey α} {ts : List OrderToken} (h : keyTokens? k = some ts) :
    OrderToken.comma ∉ ts ∧ ts ≠ [] := by
  obtain ⟨name, hname, rfl⟩ := Option.map_eq_some_iff.1 h
  have hwords : OrderToken.comma ∉ wordTokens k.direction := by cases k.direction <;> decide
  refine ⟨fun hmem => ?_, ?_⟩
  · exact (List.mem_append.1 hmem).elim (comma_notMem_nameTokens? hname) hwords
  · cases k.direction <;> simp [wordTokens]

/-- The text of a plan is read key by key. -/
theorem ofText?_sqlText (p : SortPlan α) :
    OrderClause.ofText? p.sqlText = p.keys.mapM readItem? := by
  have hread : p.keys.mapM readItem? = (p.keys.mapM keyTokens?).bind (·.mapM OrderItem.ofTokens?) :=
    mapM_bind keyTokens? OrderItem.ofTokens? p.keys
  rw [hread, sqlText, OrderClause.ofText?]
  cases p.keys with
  | nil =>
    rw [List.map_nil, String.intercalate_nil, String.toList_empty, TokenReader.tokens?_nil]
    rfl
  | cons k ks =>
    rw [(cuts_keys k ks).alone]
    cases htokens : (k :: ks).mapM keyTokens? with
    | none => rfl
    | some tss =>
      have hall : ∀ ts ∈ tss, OrderToken.comma ∉ ts ∧ ts ≠ [] := by
        intro ts hts
        obtain ⟨k', -, hk'⟩ := exists_of_mapM htokens hts
        exact keyTokens?_eq_some hk'
      obtain ⟨ts, tss, rfl⟩ : ∃ ts tss', tss = ts :: tss' := by
        obtain ⟨ts, tss, -, -, rfl⟩ := mapM_cons_eq_some.1 htokens
        exact ⟨ts, tss, rfl⟩
      have hne : [OrderToken.comma].intercalate (ts :: tss) ≠ [] := by
        have hts := (hall ts List.mem_cons_self).2
        cases tss <;> simp [List.intercalate_cons_cons, hts]
      obtain ⟨t, rest, htext⟩ := List.exists_cons_of_ne_nil hne
      rw [Option.map_some, Option.bind_some, htext]
      show (List.splitOn .comma (t :: rest)).mapM OrderItem.ofTokens? = _
      rw [← htext, List.splitOn_intercalate _ (fun ts hts => (hall ts hts).1)
        (List.cons_ne_nil ts tss)]

/-- A key is read as itself exactly if its column is written as a name. -/
theorem readItem?_eq_iff {k : SortKey α} :
    readItem? k = some (orderItem k) ↔ IsSortColumn k.field.column := by
  rw [readItem?, keyTokens?]
  constructor
  · intro h
    obtain ⟨ts, hts, h⟩ := Option.bind_eq_some_iff.1 h
    obtain ⟨name, hname, rfl⟩ := Option.map_eq_some_iff.1 hts
    cases name with
    | nil => exact absurd hname (nameTokens?_ne_nil k.field.column)
    | cons t name => exact isSortColumn_of_nameTokens? hname (ofToken?_of_ofTokens? h)
  · intro h
    obtain ⟨t, hname, ht⟩ := nameTokens?_of_isSortColumn h
    rw [hname, Option.map_some, Option.bind_some, List.singleton_append, OrderItem.ofTokens?, ht,
      orderItem]
    cases k.direction <;> rfl

/-- The text of a plan is read as the keys of the plan exactly if their columns are written as
names. -/
theorem ofText?_sqlText_eq_iff {p : SortPlan α} :
    OrderClause.ofText? p.sqlText = some (p.keys.map orderItem) ↔
      ∀ k ∈ p.keys, IsSortColumn k.field.column := by
  rw [ofText?_sqlText, mapM_eq_some_map]
  exact forall₂_congr fun _ _ => readItem?_eq_iff

/-! ## The order that a plan writes -/

/-- The rows of the entities hold what the keys read, each in the column of its field. -/
def RowsHold (p : SortPlan α) (items : List α) (row : α → Row) : Prop :=
  ∀ a ∈ items, ∀ k ∈ p.keys, (row a k.field.column).map Prod.snd = some (k.field.read a)

/-- Values of one type stand as the direction says, and so do nulls. -/
theorem compare?_orderItem {t : FieldType} {v w : Value} (k : SortKey α) (hv : v.Sortable t)
    (hw : w.Sortable t) :
    (orderItem k).compare? v w = some (k.direction.apply (v.sortCompare w)) := by
  rcases hv with rfl | ⟨hv, hvnan⟩
  · rcases hw with rfl | ⟨hw, -⟩
    · cases hd : k.direction <;> rfl
    · cases w with
      | null => cases hw
      | _ => cases hd : k.direction <;> simp [orderItem, hd, OrderItem.compare?, Value.isNull,
          Value.sortCompare, SortDirection.apply]
  · rcases hw with rfl | ⟨hw, hwnan⟩
    · cases v with
      | null => cases hv
      | _ => cases hd : k.direction <;> simp [orderItem, hd, OrderItem.compare?, Value.isNull,
          Value.sortCompare, SortDirection.apply]
    · have hcompare := Value.compare_eq_rankCompare hv hw hvnan hwnan
      have hsort := Value.sortCompare_eq_rankCompare (.inr ⟨hv, hvnan⟩) (.inr ⟨hw, hwnan⟩)
      have hvnull : v.isNull = false := by cases v <;> first | rfl | cases hv
      have hwnull : w.isNull = false := by cases w <;> first | rfl | cases hw
      rw [OrderItem.compare?, hvnull, hwnull, hcompare, Option.map_some, hsort, orderItem]

theorem compare?_orderItems {ks : List (SortKey α)} {a b : α} {row row' : Row}
    (h : ∀ k ∈ ks, ∃ t, (k.field.read a).Sortable t ∧ (k.field.read b).Sortable t)
    (ha : ∀ k ∈ ks, (row k.field.column).map Prod.snd = some (k.field.read a))
    (hb : ∀ k ∈ ks, (row' k.field.column).map Prod.snd = some (k.field.read b))
    (selected : List String) :
    OrderClause.compare? selected row row' (ks.map orderItem) =
      some (compareBy Field.read a b ks) := by
  induction ks with
  | nil => rfl
  | cons k ks ih =>
    obtain ⟨⟨t, hat, hbt⟩, hks⟩ := List.forall_mem_cons.1 h
    obtain ⟨hak, haks⟩ := List.forall_mem_cons.1 ha
    obtain ⟨hbk, hbks⟩ := List.forall_mem_cons.1 hb
    have hav : (orderItem k).target.value? selected row = some (k.field.read a) := hak
    have hbv : (orderItem k).target.value? selected row' = some (k.field.read b) := hbk
    rw [List.map_cons, OrderClause.compare?, hav, hbv, ih hks haks hbks]
    show ((orderItem k).compare? (k.field.read a) (k.field.read b)).bind _ = _
    rw [compare?_orderItem k hat hbt]
    rfl

theorem compare?_keys {p : SortPlan α} {items : List α} (h : p.Uniform items) {row : α → Row}
    (hrow : p.RowsHold items row) (selected : List String) {a b : α} (ha : a ∈ items)
    (hb : b ∈ items) :
    OrderClause.compare? selected (row a) (row b) (p.keys.map orderItem) =
      some (p.compare a b) :=
  compare?_orderItems (fun k hk => (h k hk).imp fun _ ht => ⟨ht a ha, ht b hb⟩) (hrow a ha)
    (hrow b hb) selected

/-- A plan whose keys read values of one type each sorts stably by a total preorder, with nulls
where its first key has them. A database that sorts by the keys, given by their columns, puts rows
in the same order, and it reads them from the text of the plan exactly if every column is written
as a name. -/
theorem sorts_as_written {p : SortPlan α} {items : List α} (h : p.Uniform items) :
    TotalPreorderOn p.compare items ∧ SortsStably p.compare items (p.apply items) ∧
      (∀ k ∈ p.keys.head?, k.PlacesNulls (p.apply items)) ∧
      (∀ selected row, p.RowsHold items row → ∀ a ∈ items, ∀ b ∈ items,
        OrderClause.compare? selected (row a) (row b) (p.keys.map orderItem) =
          some (p.compare a b)) ∧
      (OrderClause.ofText? p.sqlText = some (p.keys.map orderItem) ↔
        ∀ k ∈ p.keys, IsSortColumn k.field.column) := by
  refine ⟨h.totalPreorderOn, h.sortsStably, fun k hk => ?_,
    fun selected row hrow a ha b hb => compare?_keys h hrow selected ha hb,
    ofText?_sqlText_eq_iff⟩
  obtain ⟨ks, hks⟩ := List.head?_eq_some_iff.1 hk
  exact placesNulls_of_pairwise hks h.sortsStably.ordered

/-- Parts of which one size is missing twice. -/
def stockRows : List Part :=
  [(.string "bolt", .number (.ofInt 7), .null), (.string "cog", .null, .null),
   (.string "axle", .number (.ofInt 9), .null), (.string "axle", .null, .null),
   (.string "axle", .number (.ofInt 7), .null)]

def stockPlan : SortPlan Part := .parse partMap (some "-netSize, name")

theorem sorts_as_written_stockRows :
    stockPlan.keys.map (·.field.column) = ["net_size", "name"] ∧ stockPlan.Uniform stockRows ∧
      stockPlan.RowsHold stockRows partMap.row ∧
      TotalPreorderOn stockPlan.compare stockRows ∧
      SortsStably stockPlan.compare stockRows (stockPlan.apply stockRows) ∧
      (∀ k ∈ stockPlan.keys.head?, k.PlacesNulls (stockPlan.apply stockRows)) ∧
      ∀ selected, ∀ a ∈ stockRows, ∀ b ∈ stockRows,
        (OrderClause.ofText? stockPlan.sqlText).bind
          (OrderClause.compare? selected (partMap.row a) (partMap.row b)) =
            some (stockPlan.compare a b) := by
  have hcolumns : stockPlan.keys.map (·.field.column) = ["net_size", "name"] := by decide
  have huniform : stockPlan.Uniform stockRows := by
    have htyped : ∀ k ∈ stockPlan.keys, ∀ a ∈ stockRows,
        (k.field.read a).Sortable k.field.type := by decide +kernel
    exact fun k hk => ⟨k.field.type, htyped k hk⟩
  have hrow : stockPlan.RowsHold stockRows partMap.row := by
    unfold RowsHold
    decide +kernel
  have hnames : ∀ k ∈ stockPlan.keys, IsSortColumn k.field.column := by
    rw [← List.forall_mem_map (P := IsSortColumn), hcolumns]
    decide
  obtain ⟨hpreorder, hstable, hnulls, hcompare, hread⟩ := sorts_as_written huniform
  refine ⟨hcolumns, huniform, hrow, hpreorder, hstable, hnulls, fun selected a ha b hb => ?_⟩
  rw [hread.2 hnames]
  exact hcompare selected partMap.row hrow a ha b hb

/-! ## A column with a number for a name -/

/-- Two values as an entity with a name and a score. -/
abbrev Survey := Value × Value

def surveyFields : List (Field Survey) :=
  [⟨"name", "name", "name", .string, fun s => s.1, true, true, true⟩,
   ⟨"score", "1", "score", .number, fun s => s.2, true, true, true⟩]

def surveyMap : FieldMap Survey := ⟨"Survey", ⟨surveyFields, by decide⟩, .empty, none⟩

/-- To sort by the score, whose column is written bare, is read as to sort by the name. -/
theorem order_by_position :
    (parse surveyMap (some "score")).sqlText = "1 ASC NULLS FIRST" ∧
      (OrderClause.ofText? "1 ASC NULLS FIRST").bind
        (OrderClause.compare? ["name", "1"]
          (surveyMap.row (.string "a", .number (.ofInt 5)))
          (surveyMap.row (.string "b", .number (.ofInt 3)))) = some .lt ∧
      (parse surveyMap (some "score")).compare
        (.string "a", .number (.ofInt 5)) (.string "b", .number (.ofInt 3)) = .gt := by
  decide +kernel

end SortPlan

end EntityQuery
