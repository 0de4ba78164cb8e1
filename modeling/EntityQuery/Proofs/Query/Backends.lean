import EntityQuery.Proofs.Document.Selection
import EntityQuery.Proofs.Query.Preorder
import EntityQuery.Store

/-!
# Two stores, one answer

A compiled query selects an entity exactly if it selects its document (`accepts_eq_selects`), and
both stores sort and cut in the same way. So a store of documents answers every request with the
documents of what a store of the entities answers (`runQuery_ofEntities`). Two things stand against
it: a leap second within a minute is another second in its document, and a sort by keys that read
values of several types may break off in both stores, which is neither a page nor a failure
(`runQuery_ofEntities_fails`).
-/

namespace EntityQuery

variable {α : Type} {m : FieldMap α}

/-- The instants that a request compares with are of the years from 0 to 9999. -/
def QueryRequest.InEra (m : FieldMap α) (r : QueryRequest) : Prop :=
  ∀ n, Node.parse (Text.trim (r.filter.getD "")) = .ok n →
    ∀ i, .dateTime i ∈ n.operands m → i.InEra

/-! ## Compiled filters -/

theorem Except.mapError_eq_ok {ε ε' β : Type} {x : Except ε β} {f : ε → ε'} {b : β} :
    x.mapError f = .ok b ↔ x = .ok b := by
  cases x with
  | error e => exact ⟨fun h => (nomatch h), fun h => (nomatch h)⟩
  | ok a => exact ⟨fun h => by rw [Except.ok.inj h], fun h => by rw [Except.ok.inj h]; rfl⟩

theorem checkFilter_eq_ok {limits : FilterLimits} {raw : String} {n : Node}
    (h : checkFilter m limits raw = .ok n) :
    Node.parse raw = .ok n ∧ n.validate m limits = .ok () := by
  unfold checkFilter at h
  obtain ⟨_, _, h⟩ := Except.bind_eq_ok h
  obtain ⟨n', hparse, h⟩ := Except.bind_eq_ok h
  obtain ⟨_, hvalid, h⟩ := Except.bind_eq_ok h
  obtain rfl := Except.ok.inj h
  exact ⟨Except.mapError_eq_ok.1 hparse, Except.mapError_eq_ok.1 hvalid⟩

theorem CompiledFilter.ofText_eq_ok {limits : FilterLimits} {raw : String}
    {f : CompiledFilter α} (h : CompiledFilter.ofText m limits raw = .ok f) :
    checkFilter m limits raw = .ok f.node ∧ f.node.toPredicate m = .ok f.predicate ∧
      f.node.toDocumentFilter m = .ok f.document := by
  unfold ofText at h
  obtain ⟨n, hcheck, h⟩ := Except.bind_eq_ok h
  obtain ⟨p, hp, h⟩ := Except.bind_eq_ok h
  obtain ⟨d, hd, h⟩ := Except.bind_eq_ok h
  obtain rfl := Except.ok.inj h
  exact ⟨hcheck, Except.mapError_eq_ok.1 hp, Except.mapError_eq_ok.1 hd⟩

/-- Both forms of a compiled filter give the same verdicts. -/
theorem CompiledFilter.agrees (hm : m.PlainPaths) {limits : FilterLimits} {raw : String}
    {f : CompiledFilter α} (h : CompiledFilter.ofText m limits raw = .ok f)
    (hera : ∀ n, Node.parse raw = .ok n → ∀ i, .dateTime i ∈ n.operands m → i.InEra) :
    f.predicate.AgreesWith m f.document := by
  obtain ⟨hcheck, hp, hd⟩ := ofText_eq_ok h
  obtain ⟨hparse, hvalid⟩ := checkFilter_eq_ok hcheck
  obtain ⟨p, d, hp', hd', hagree⟩ :=
    Node.wellTyped_agrees hm (Node.wellTyped_of_validate hvalid) (hera f.node hparse)
  obtain rfl : f.predicate = p := Except.ok.inj (hp.symm.trans hp')
  obtain rfl : f.document = d := Except.ok.inj (hd.symm.trans hd')
  exact hagree

namespace CompiledQuery

theorem compile_eq_ok {c : QueryConfig} {r : QueryRequest} {q : CompiledQuery α}
    (h : compile m c r = .ok q) :
    filterOf m c.limits r.filter = .ok q.filter ∧ q.sort = SortPlan.parse m r.sort := by
  unfold compile at h
  obtain ⟨filter, hfilter, h⟩ := Except.bind_eq_ok h
  obtain rfl := Except.ok.inj h
  exact ⟨Except.mapError_eq_ok.1 hfilter, rfl⟩

/-- All but the filter is there whatever the request says. -/
theorem eq_of_compile {c : QueryConfig} {r : QueryRequest} {q : CompiledQuery α}
    (h : compile m c r = .ok q) :
    q = {
      map := m
      filter := q.filter
      sort := SortPlan.parse m r.sort
      includes := IncludeSet.parse m r.relations
      page := PageRequest.normalize c.paging r.page r.pageSize
      projection := Projection.parse r.fields } := by
  unfold compile at h
  obtain ⟨filter, _, h⟩ := Except.bind_eq_ok h
  obtain rfl := Except.ok.inj h
  rfl

theorem map_of_compile {c : QueryConfig} {r : QueryRequest} {q : CompiledQuery α}
    (h : compile m c r = .ok q) : q.map = m := by rw [eq_of_compile h]

/-- There is no filter exactly if the text is blank. -/
theorem filterOf_eq_ok {limits : FilterLimits} {raw : Option String}
    {filter : Option (CompiledFilter α)} (h : filterOf m limits raw = .ok filter) :
    (filter = none ∧ Text.trim (raw.getD "") = "") ∨
      ∃ f, filter = some f ∧ CompiledFilter.ofText m limits (Text.trim (raw.getD "")) = .ok f := by
  unfold filterOf at h
  by_cases hblank : Text.trim (raw.getD "") = ""
  · rw [if_pos hblank] at h
    exact .inl ⟨(Except.ok.inj h).symm, hblank⟩
  · rw [if_neg hblank] at h
    cases htext : CompiledFilter.ofText m limits (Text.trim (raw.getD "")) with
    | error e =>
      rw [htext] at h
      cases h
    | ok f =>
      rw [htext] at h
      exact .inr ⟨f, (Except.ok.inj h).symm, rfl⟩

/-- A filter that was compiled is that of the trimmed text. -/
theorem filter_eq_some {c : QueryConfig} {r : QueryRequest} {q : CompiledQuery α}
    (h : compile m c r = .ok q) {f : CompiledFilter α} (hf : q.filter = some f) :
    CompiledFilter.ofText m c.limits (Text.trim (r.filter.getD "")) = .ok f := by
  rcases filterOf_eq_ok (compile_eq_ok h).1 with ⟨hnone, -⟩ | ⟨g, hg, htext⟩
  · rw [hf] at hnone
    cases hnone
  · rw [hf] at hg
    cases hg
    exact htext

theorem filter_eq_none {c : QueryConfig} {r : QueryRequest} {q : CompiledQuery α}
    (h : compile m c r = .ok q) (hf : q.filter = none) : Text.trim (r.filter.getD "") = "" := by
  rcases filterOf_eq_ok (compile_eq_ok h).1 with ⟨-, hblank⟩ | ⟨g, hg, -⟩
  · exact hblank
  · rw [hf] at hg
    cases hg

/-- A compiled query accepts an entity exactly if its document filter selects the document. -/
theorem accepts_eq_selects (hm : m.PlainPaths) {c : QueryConfig} {r : QueryRequest}
    {q : CompiledQuery α} (h : compile m c r = .ok q) (hr : r.InEra m) {entity : α}
    (he : m.Stores entity) :
    q.accepts entity = q.documentFilter.selects (m.toDocument entity) := by
  rw [accepts, documentFilter]
  cases hf : q.filter with
  | none => rfl
  | some f => exact CompiledFilter.agrees hm (filter_eq_some h hf) hr entity he

end CompiledQuery

/-! ## Pages -/

theorem PageRequest.slice_map {β γ : Type} (p : PageRequest) (f : β → γ) (items : List β) :
    p.slice (items.map f) = (p.slice items).map f := by
  rw [slice, slice, List.map_take, List.map_drop]

/-- A page of changed items, when filter and sort go along with the change. -/
theorem pageOf?_map {β γ : Type} (q : CompiledQuery α) {f : β → γ} {selected : β → Bool}
    {selected' : γ → Bool} {sort : List β → Option (List β)} {sort' : List γ → Option (List γ)}
    {items : List β} (hselected : ∀ b ∈ items, selected' (f b) = selected b)
    (hsort : sort' ((items.filter selected).map f) =
      (sort (items.filter selected)).map (List.map f)) :
    pageOf? q selected' sort' (items.map f) = (pageOf? q selected sort items).map (Page.map f) := by
  have hfilter : (items.map f).filter selected' = (items.filter selected).map f := by
    rw [List.filter_map]
    exact congrArg _ (List.filter_congr hselected)
  simp only [pageOf?, hfilter, hsort, List.length_map, Option.map_map]
  refine congrArg (Option.map · _) (funext fun sorted => ?_)
  simp only [Function.comp_apply, PageRequest.slice_map]
  rfl

theorem pageOf_map {β γ : Type} (q : CompiledQuery α) {f : β → γ} {selected : β → Bool}
    {selected' : γ → Bool} {sort : List β → List β} {sort' : List γ → List γ} {items : List β}
    (hselected : ∀ b ∈ items, selected' (f b) = selected b)
    (hsort : sort' ((items.filter selected).map f) = (sort (items.filter selected)).map f) :
    pageOf q selected' sort' (items.map f) = (pageOf q selected sort items).map f := by
  have hpage : pageOf? q selected' (some ∘ sort') (items.map f) =
      (pageOf? q selected (some ∘ sort) items).map (Page.map f) :=
    pageOf?_map q hselected (congrArg some hsort)
  exact Option.some.inj hpage

/-- A request that compiles is fetched, if it has not been cancelled. -/
theorem runQuery?_of_compile {β : Type} {c : QueryConfig} {r : QueryRequest} {q : CompiledQuery α}
    (h : CompiledQuery.compile m c r = .ok q) (cancelled : Bool)
    (fetch : CompiledQuery α → Option (Page β)) :
    runQuery? m c cancelled r fetch =
      if cancelled then some (.error .cancelled) else (fetch q).map .ok := by
  rw [runQuery?, h]

theorem runQuery?_of_not_compile {β : Type} {c : QueryConfig} {r : QueryRequest} {e : InvalidFilter}
    (h : CompiledQuery.compile m c r = .error e) (cancelled : Bool)
    (fetch : CompiledQuery α → Option (Page β)) :
    runQuery? m c cancelled r fetch = some (.error (.invalidFilter e)) := by
  rw [runQuery?, h]

/-- Fetching that never breaks off gives an answer. -/
theorem runQuery?_some {β : Type} (c : QueryConfig) (cancelled : Bool) (r : QueryRequest)
    (fetch : CompiledQuery α → Page β) :
    runQuery? m c cancelled r (fun q => some (fetch q)) =
      some (runQuery m c cancelled r fetch) := by
  unfold runQuery
  cases h : CompiledQuery.compile m c r with
  | error e => exact runQuery?_of_not_compile h _ _
  | ok q =>
    rw [runQuery?_of_compile h]
    cases cancelled <;> rfl

section OfEntities

variable (hm : m.PlainPaths) {rows : List α} (hrows : ∀ e ∈ rows, m.Stores e) {c : QueryConfig}
  {r : QueryRequest}
include hm hrows

/-- A plan orders the documents of the matches as it orders the matches. -/
theorem compareDocuments_matches {q : CompiledQuery α} (h : CompiledQuery.compile m c r = .ok q) :
    ∀ a ∈ rows.filter q.accepts, ∀ b ∈ rows.filter q.accepts,
      q.sort.compareDocuments (m.toDocument a) (m.toDocument b) = q.sort.compare a b := by
  intro a ha b hb
  refine SortPlan.compareDocuments_toDocument hm (fun k hk => ?_)
    (hrows a (List.mem_filter.1 ha).1) (hrows b (List.mem_filter.1 hb).1)
  rw [(CompiledQuery.compile_eq_ok h).2] at hk
  exact SortPlan.mem_of_mem_keys_parse hk

/-- The stores fetch alike when the sort goes along with the change. -/
theorem fetchBy_ofEntities {q : CompiledQuery α} (h : CompiledQuery.compile m c r = .ok q)
    (hr : r.InEra m) {s : Sorter}
    (hsort : s.run q.sort.compareDocuments ((rows.filter q.accepts).map m.toDocument) =
      (s.run q.sort.compare (rows.filter q.accepts)).map (List.map m.toDocument)) :
    (DocumentStore.ofEntities m rows).fetchBy s q =
      ((⟨rows⟩ : RowStore α).fetchBy s q).map (Page.map m.toDocument) :=
  pageOf?_map q (fun e he => (CompiledQuery.accepts_eq_selects hm h hr (hrows e he)).symm) hsort

/-- With a sort that only compares, both stores come to the same end. -/
theorem runQuery?_of_isBlind (hr : r.InEra m) (cancelled : Bool) {s : Sorter} (hs : s.IsBlind) :
    runQuery? m c cancelled r ((DocumentStore.ofEntities m rows).fetchBy s) =
      (runQuery? m c cancelled r ((⟨rows⟩ : RowStore α).fetchBy s)).map
        (Except.map (Page.map m.toDocument)) := by
  cases h : CompiledQuery.compile m c r with
  | error e =>
    rw [runQuery?_of_not_compile h, runQuery?_of_not_compile h]
    rfl
  | ok q =>
    rw [runQuery?_of_compile h, runQuery?_of_compile h,
      fetchBy_ofEntities hm hrows h hr (hs (compareDocuments_matches hm hrows h))]
    cases cancelled with
    | true => rfl
    | false =>
      show Option.map _ (Option.map _ _) = Option.map _ (Option.map _ _)
      rw [Option.map_map, Option.map_map]
      rfl

/-- By a total preorder any sort ends, and both stores answer. -/
theorem exists_answer_of_totalPreorderOn (hr : r.InEra m) (cancelled : Bool) (s : Sorter)
    (htotal : ∀ q, cancelled = false → CompiledQuery.compile m c r = .ok q →
      TotalPreorderOn q.sort.compare (rows.filter q.accepts)) :
    ∃ answer, runQuery? m c cancelled r ((⟨rows⟩ : RowStore α).fetchBy s) = some answer ∧
      runQuery? m c cancelled r ((DocumentStore.ofEntities m rows).fetchBy s) =
        some (answer.map (Page.map m.toDocument)) := by
  cases h : CompiledQuery.compile m c r with
  | error e => exact ⟨_, runQuery?_of_not_compile h _ _, runQuery?_of_not_compile h _ _⟩
  | ok q =>
    rw [runQuery?_of_compile h, runQuery?_of_compile h]
    cases cancelled with
    | true => exact ⟨_, rfl, rfl⟩
    | false =>
      obtain ⟨sorted, hrun, -, hrun'⟩ :=
        s.run_map (compareDocuments_matches hm hrows h) (htotal q rfl h)
      have hdocuments := fetchBy_ofEntities hm hrows h hr (s := s)
        (hrun'.trans (congrArg (Option.map (List.map m.toDocument)) hrun).symm)
      rw [hdocuments, RowStore.fetchBy, pageOf?, hrun]
      exact ⟨_, rfl, rfl⟩

end OfEntities

/-- Whatever the sort of the library does, a request comes to the same end on entities and on their
documents, if the sort sees entries only by comparing them. If the plan of the request orders the
matches by a total preorder there is an end: the same failure on both, or pages with the same
numbers, those of the documents with the documents of the entities in the same order. With the sort
that runs here there always is one. -/
theorem runQuery_ofEntities (hm : m.PlainPaths) {rows : List α}
    (hrows : ∀ e ∈ rows, ∀ f ∈ m.fields.entries, (f.read e).Storable) {r : QueryRequest}
    (hr : r.InEra m) (c : QueryConfig) (cancelled : Bool) (s : Sorter) :
    let onRows := runQuery? m c cancelled r ((⟨rows⟩ : RowStore α).fetchBy s)
    let onDocuments := runQuery? m c cancelled r ((DocumentStore.ofEntities m rows).fetchBy s)
    (s.IsBlind → onDocuments = onRows.map (Except.map (Page.map m.toDocument))) ∧
      ((∀ q, cancelled = false → CompiledQuery.compile m c r = .ok q →
          TotalPreorderOn q.sort.compare (rows.filter q.accepts)) →
        ∃ answer, onRows = some answer ∧
          onDocuments = some (answer.map (Page.map m.toDocument))) ∧
      runQuery m c cancelled r (DocumentStore.ofEntities m rows).fetch =
        (runQuery m c cancelled r (⟨rows⟩ : RowStore α).fetch).map (Page.map m.toDocument) := by
  refine ⟨runQuery?_of_isBlind hm hrows hr cancelled,
    exists_answer_of_totalPreorderOn hm hrows hr cancelled s, ?_⟩
  have hrun := runQuery?_of_isBlind hm hrows (c := c) hr cancelled Sorter.isBlind_insertion
  have hrowsRun : runQuery? m c cancelled r ((⟨rows⟩ : RowStore α).fetchBy .insertion) =
      some (runQuery m c cancelled r (⟨rows⟩ : RowStore α).fetch) := runQuery?_some _ _ _ _
  have hdocumentsRun :
      runQuery? m c cancelled r ((DocumentStore.ofEntities m rows).fetchBy .insertion) =
        some (runQuery m c cancelled r (DocumentStore.ofEntities m rows).fetch) :=
    runQuery?_some _ _ _ _
  rw [hrowsRun, hdocumentsRun] at hrun
  exact Option.some.inj hrun

theorem QueryRequest.inEra_of_storable {r : QueryRequest}
    (h : (Node.parse (Text.trim (r.filter.getD ""))).toOption.all
      (fun n => decide (∀ v ∈ n.operands m, v.Storable)) = true) : r.InEra m := by
  intro n hn i hi
  rw [hn] at h
  exact (of_decide_eq_true h (.dateTime i) hi).1

/-- Parts that tie in their names, one of them without a size. -/
def partRows : List Part :=
  [(.string "bolt", .null, .null), (.string "axle", .number (.ofInt 3), .null),
   (.string "bolt", .number (.ofInt 7), .boolean true), (.string "cog", .number (.ofInt 1), .null)]

def partRequest : QueryRequest where
  filter := some "netSize >= 3 or madeAt is null and name != 'cog'"
  sort := some "-name, madeAt"
  pageSize := some 2

theorem totalPreorderOn_partRows {q : CompiledQuery Part}
    (h : CompiledQuery.compile partMap {} partRequest = .ok q) :
    TotalPreorderOn q.sort.compare (partRows.filter q.accepts) := by
  have hall : TotalPreorderOn (SortPlan.parse partMap partRequest.sort).compare partRows := by
    decide +kernel
  rw [(CompiledQuery.compile_eq_ok h).2]
  exact hall.subset fun a ha => (List.mem_filter.1 ha).1

theorem runQuery_ofEntities_partRows :
    partRequest.InEra partMap ∧
      (runQuery partMap {} false partRequest (⟨partRows⟩ : RowStore Part).fetch).toOption.map
        (fun page => (page.items.length, page.totalCount)) = some (2, 3) ∧
      runQuery partMap {} false partRequest (DocumentStore.ofEntities partMap partRows).fetch =
        (runQuery partMap {} false partRequest (⟨partRows⟩ : RowStore Part).fetch).map
          (Page.map partMap.toDocument) ∧
      ∃ answer, runQuery? partMap {} false partRequest
          ((⟨partRows⟩ : RowStore Part).fetchBy .cautious) = some answer := by
  have hera : partRequest.InEra partMap :=
    QueryRequest.inEra_of_storable (by decide +kernel)
  have hstorable : ∀ e ∈ partRows, ∀ f ∈ partMap.fields.entries, (f.read e).Storable := by
    decide +kernel
  obtain ⟨-, htotal, hruns⟩ :=
    runQuery_ofEntities partMap_plainPaths hstorable hera {} false .cautious
  obtain ⟨answer, hrows, -⟩ := htotal fun q _ hq => totalPreorderOn_partRows hq
  exact ⟨hera, by decide +kernel, hruns, answer, hrows⟩

def leapRequest : QueryRequest where
  filter := some "madeAt == 2015-06-30T23:56:05.333333333Z"

/-- Parts whose sizes are no numbers all. -/
def mixedRows : List Part :=
  [(.string "bolt", .number (.ofInt 9), .null), (.string "axle", .string "x", .null),
   (.string "cog", .number (.ofInt 3), .null)]

def sizeRequest : QueryRequest where
  sort := some "netSize"

/-- A part that was made in a leap second within a minute is found in the document store only. Of
parts whose sizes have several types a sort may make neither a page nor a failure. -/
theorem runQuery_ofEntities_fails :
    leapRequest.InEra partMap ∧ (∀ f ∈ partMap.fields.entries, (f.read Node.leapPart).InRange) ∧
      (runQuery partMap {} false leapRequest (⟨[Node.leapPart]⟩ : RowStore Part).fetch).toOption.map
        Page.totalCount = some 0 ∧
      (runQuery partMap {} false leapRequest
        (DocumentStore.ofEntities partMap [Node.leapPart]).fetch).toOption.map Page.totalCount =
          some 1 ∧
      (∀ e ∈ mixedRows, ∀ f ∈ partMap.fields.entries, (f.read e).Storable) ∧
      ∃ s : Sorter, s.IsBlind ∧
        runQuery? partMap {} false sizeRequest ((⟨mixedRows⟩ : RowStore Part).fetchBy s) = none :=
  ⟨QueryRequest.inEra_of_storable (by decide +kernel), by decide, by decide +kernel,
    by decide +kernel, by decide +kernel, .cautious, Sorter.isBlind_cautious,
    Option.isNone_iff_eq_none.1 (by decide +kernel)⟩

end EntityQuery
