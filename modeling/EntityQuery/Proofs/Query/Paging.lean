import EntityQuery.Proofs.Query.Backends
import Mathlib.Data.List.Basic

/-!
# Walking through the pages

The pages of one size cut a list into pieces that follow on one another (`flatMap_slice`), and the
number of pages is the number of pieces that are not empty (`lt_totalPages_iff`). So whoever asks
for one page after another is shown every match once, as long as page numbers are not cut to 32 bits
and the sort does not break off; and in order, if the plan of the request orders the matches by a
total preorder (`walk_pages`). Values that are even with all others, such as NaN among numbers, make
it none, and then there is no order to show them in (`walk_pages_fails`).
-/

namespace EntityQuery

variable {α β : Type}

/-! ## Page numbers and sizes -/

/-- The settings are numbers of 32 bits. -/
structure PagingConfig.Fits (c : PagingConfig) : Prop where
  defaultPage : c.defaultPage < pageLimit
  defaultPageSize : c.defaultPageSize < pageLimit
  maxPageSize : c.maxPageSize < pageLimit

namespace PageRequest

theorem countOr_of_pos (default : Nat) {n : Nat} (h : 1 ≤ n) :
    countOr default (some n) = min n (pageLimit - 1) := by
  cases n with
  | zero => exact absurd h (by decide)
  | succ n => rfl

theorem one_le_countOr (default : Nat) (n : Option Int) : 1 ≤ countOr default n := by
  have hlimit : pageLimit = 4294967296 := rfl
  unfold countOr
  split
  · omega
  · omega

theorem countOr_lt {default : Nat} (h : default < pageLimit) (n : Option Int) :
    countOr default n < pageLimit := by
  have hlimit : pageLimit = 4294967296 := rfl
  unfold countOr
  split
  · omega
  · omega

/-- What is left of two numbers of 32 bits in 64 bits. -/
theorem skip_add_limit_lt {r : PageRequest} (hpage : 1 ≤ r.page) (hlt : r.page < pageLimit)
    (hsize : r.pageSize < pageLimit) : r.skip + r.limit < sizeLimit := by
  have hsum : r.skip + r.limit = r.page * r.pageSize := by
    obtain ⟨n, hn⟩ := Nat.exists_eq_add_of_le' hpage
    rw [skip, limit, hn, Nat.add_sub_cancel, Nat.succ_mul]
  have hprod : r.page * r.pageSize ≤ (pageLimit - 1) * (pageLimit - 1) :=
    Nat.mul_le_mul (Nat.le_sub_one_of_lt hlt) (Nat.le_sub_one_of_lt hsize)
  have hlimits : (pageLimit - 1) * (pageLimit - 1) < sizeLimit := by decide
  rw [hsum]
  exact Nat.lt_of_le_of_lt hprod hlimits

/-- Both numbers are positive, the size within its bound, and the places of the items of a page are
numbers of 64 bits. -/
theorem normalize_bounds {c : PagingConfig} (hc : c.Fits) (page pageSize : Option Int) :
    let r := normalize c page pageSize
    1 ≤ r.page ∧ 1 ≤ r.pageSize ∧ r.pageSize ≤ max c.maxPageSize 1 ∧ r.skip < sizeLimit ∧
      r.skip + r.limit < sizeLimit := by
  intro r
  have hpage : 1 ≤ r.page := one_le_countOr c.defaultPage page
  have hsize : 1 ≤ r.pageSize :=
    Nat.le_min.2 ⟨one_le_countOr c.defaultPageSize pageSize, Nat.le_max_right _ 1⟩
  have hsum : r.skip + r.limit < sizeLimit :=
    skip_add_limit_lt hpage (countOr_lt hc.defaultPage page)
      (Nat.lt_of_le_of_lt (Nat.min_le_left _ _) (countOr_lt hc.defaultPageSize pageSize))
  exact ⟨hpage, hsize, Nat.min_le_right _ _, Nat.lt_of_le_of_lt (Nat.le_add_right _ _) hsum, hsum⟩

/-- A size that is asked for is cut only to the greatest one allowed. -/
theorem pageSize_normalize {c : PagingConfig} (hc : c.Fits) (page : Option Int) {p : Int}
    (hp : 1 ≤ p) : (normalize c page (some p)).pageSize = min p.toNat (max 1 c.maxPageSize) := by
  have hmax := hc.maxPageSize
  have hlimit : pageLimit = 4294967296 := rfl
  obtain ⟨n, rfl⟩ := Int.eq_ofNat_of_zero_le (Int.le_of_lt hp)
  have hn : 1 ≤ n := by omega
  show min (countOr c.defaultPageSize (some n)) (max c.maxPageSize 1) = _
  rw [countOr_of_pos _ hn, Int.toNat_natCast]
  omega

/-! ## Cutting out pages -/

theorem length_slice (r : PageRequest) (items : List β) :
    (r.slice items).length = min r.pageSize (items.length - r.skip) := by
  rw [slice, limit, List.length_take, List.length_drop]

/-- The first pages one after another are the first items. -/
theorem flatMap_slice (size : Nat) (items : List β) (n : Nat) :
    (List.range n).flatMap (fun k => (⟨k + 1, size⟩ : PageRequest).slice items) =
      items.take (n * size) := by
  induction n with
  | zero => rw [Nat.zero_mul, List.take_zero]; rfl
  | succ n ih =>
    rw [List.range_succ, List.flatMap_append, ih, Nat.succ_mul, List.take_add,
      List.flatMap_singleton]
    rfl

end PageRequest

namespace Page

/-- Pages are counted as long as there are items left for them. -/
theorem lt_totalPages_iff {p : Page β} (h : 1 ≤ p.pageSize) (k : Nat) :
    k < p.totalPages ↔ k * p.pageSize < p.totalCount := by
  have hsize : ¬ p.pageSize = 0 := Nat.ne_of_gt h
  rw [totalPages, if_neg hsize, Nat.lt_iff_add_one_le, Nat.le_div_iff_mul_le h, Nat.succ_mul]
  omega

end Page

/-! ## A walk -/

/-- `page k` is page `k`, counted from one, of a list of items with `size` of them on a page. -/
structure Walk (page : Nat → Page β) (items : List β) (size pages : Nat) : Prop where
  totalCount : ∀ k, 1 ≤ k → (page k).totalCount = items.length
  pageSize : ∀ k, 1 ≤ k → (page k).pageSize = size
  totalPages : ∀ k, 1 ≤ k → (page k).totalPages = pages
  /-- Nothing is left out or shown twice, unless page numbers are cut. -/
  joined : pages < pageLimit - 1 →
    (List.range pages).flatMap (fun k => (page (k + 1)).items) = items
  full : pages < pageLimit - 1 → ∀ k, 1 ≤ k → k < pages → (page k).items.length = size
  beyond : pages < pageLimit - 1 → ∀ k, pages < k → (page k).items = []
  hasNext : pages < pageLimit - 1 → ∀ k, 1 ≤ k → ((page k).hasNext = true ↔ k < pages)

/-- Page `k` of a list, its number cut to 32 bits. -/
def pageAt (items : List β) (size k : Nat) : Page β :=
  let r : PageRequest := ⟨min k (pageLimit - 1), size⟩
  .ofItems (r.slice items) r items.length

section PageAt

variable {items : List β} {size k pages : Nat}

theorem items_pageAt_succ (h : k + 1 < pageLimit) :
    (pageAt items size (k + 1)).items = (⟨k + 1, size⟩ : PageRequest).slice items := by
  rw [pageAt, Nat.min_eq_left (Nat.le_sub_one_of_lt h)]
  rfl

theorem length_items_pageAt :
    (pageAt items size k).items.length =
      min size (items.length - (min k (pageLimit - 1) - 1) * size) :=
  PageRequest.length_slice _ items

theorem lt_totalPages_pageAt (hsize : 1 ≤ size) (j : Nat) :
    j < (pageAt items size k).totalPages ↔ j * size < items.length :=
  Page.lt_totalPages_iff hsize j

/-- The pages that are counted are enough for all items. -/
theorem length_le_of_pages (hpages : ∀ j, j < pages ↔ j * size < items.length) :
    items.length ≤ pages * size :=
  Nat.not_lt.1 (mt (hpages pages).2 (Nat.lt_irrefl pages))

theorem joined_pageAt (hpages : ∀ j, j < pages ↔ j * size < items.length)
    (hlimit : pages < pageLimit - 1) :
    (List.range pages).flatMap (fun k => (pageAt items size (k + 1)).items) = items := by
  have hslices : ∀ k ∈ List.range pages,
      (pageAt items size (k + 1)).items = (⟨k + 1, size⟩ : PageRequest).slice items := by
    intro k hk
    have hk : k < pages := List.mem_range.1 hk
    exact items_pageAt_succ (by omega)
  rw [List.flatMap_congr hslices, PageRequest.flatMap_slice,
    List.take_of_length_le (length_le_of_pages hpages)]

theorem full_pageAt (hpages : ∀ j, j < pages ↔ j * size < items.length)
    (hlimit : pages < pageLimit - 1) (hk : 1 ≤ k) (hlast : k < pages) :
    (pageAt items size k).items.length = size := by
  have hmore : k * size < items.length := (hpages k).1 hlast
  obtain ⟨n, rfl⟩ := Nat.exists_eq_add_of_le' hk
  have huncut : min (n + 1) (pageLimit - 1) = n + 1 := Nat.min_eq_left (by omega)
  rw [Nat.succ_mul] at hmore
  rw [length_items_pageAt, huncut, Nat.add_sub_cancel]
  omega

theorem beyond_pageAt (hpages : ∀ j, j < pages ↔ j * size < items.length)
    (hlimit : pages < pageLimit - 1) (hk : pages < k) : (pageAt items size k).items = [] := by
  have hcut : pages ≤ min k (pageLimit - 1) - 1 := by omega
  have hskip : items.length ≤ (min k (pageLimit - 1) - 1) * size :=
    Nat.le_trans (length_le_of_pages hpages) (Nat.mul_le_mul_right size hcut)
  apply List.eq_nil_of_length_eq_zero
  rw [length_items_pageAt]
  omega

theorem hasNext_pageAt (hlimit : (pageAt items size k).totalPages < pageLimit - 1) :
    (pageAt items size k).hasNext = true ↔ k < (pageAt items size k).totalPages := by
  have hnumber : (pageAt items size k).page = min k (pageLimit - 1) := rfl
  rw [Page.hasNext, decide_eq_true_eq, hnumber]
  omega

/-- The pages of a list are a walk through it. -/
theorem walk_pageAt (items : List β) (hsize : 1 ≤ size) :
    Walk (pageAt items size) items size (pageAt items size 1).totalPages := by
  have hpages (j : Nat) : j < (pageAt items size 1).totalPages ↔ j * size < items.length :=
    lt_totalPages_pageAt hsize j
  exact {
    totalCount := fun k _ => rfl
    pageSize := fun k _ => rfl
    totalPages := fun k _ => rfl
    joined := joined_pageAt hpages
    full := fun hlimit k => full_pageAt hpages hlimit
    beyond := fun hlimit k => beyond_pageAt hpages hlimit
    hasNext := fun hlimit k _ => hasNext_pageAt hlimit }

end PageAt

/-! ## Requests for one page after another -/

/-- The same request for another page. -/
def QueryRequest.onPage (r : QueryRequest) (k : Nat) : QueryRequest := { r with page := some k }

/-- A store shows each of the matches once to whoever asks for one page after another. -/
structure ShowsAll (answer : Nat → Option (Except QueryFailure (Page β))) (matched items : List β)
    (size : Nat) : Prop where
  walk : ∃ page pages, (∀ k, 1 ≤ k → answer k = some (.ok (page k))) ∧ Walk page items size pages
  perm : items.Perm matched

/-- What a store answers whose sort may break off. -/
structure Answers (answer : Nat → Option (Except QueryFailure (Page β)))
    (compare : β → β → Ordering) (matched : List β) (size : Nat) : Prop where
  /-- The sort breaks off for all pages or for none. -/
  shows : (∀ k, 1 ≤ k → answer k = none) ∨ ∃ items, ShowsAll answer matched items size
  /-- By a total preorder it does not, and the matches are shown in order. -/
  sorted : TotalPreorderOn compare matched →
    ∃ items, ShowsAll answer matched items size ∧ SortsStably compare matched items

namespace CompiledQuery

variable {m : FieldMap α}

/-- Requests for other pages are compiled to the same query for other pages. -/
theorem compile_onPage (m : FieldMap α) (c : QueryConfig) (r : QueryRequest) (k : Nat) :
    compile m c (r.onPage k) = (compile m c r).map fun q =>
      { q with page := PageRequest.normalize c.paging (some k) r.pageSize } := by
  unfold compile
  have hfilter : (r.onPage k).filter = r.filter := rfl
  rw [hfilter]
  cases filterOf m c.limits r.filter <;> rfl

theorem normalize_onPage {c : PagingConfig} (hc : c.Fits) {k : Nat} (hk : 1 ≤ k) {p : Int}
    (hp : 1 ≤ p) :
    PageRequest.normalize c (some k) (some p) =
      ⟨min k (pageLimit - 1), min p.toNat (max 1 c.maxPageSize)⟩ := by
  have hsize := PageRequest.pageSize_normalize hc (some k) hp
  have hpage := PageRequest.countOr_of_pos c.defaultPage hk
  rw [← hsize, ← hpage]
  rfl

section Answers

variable {c : QueryConfig} (hc : c.paging.Fits) {r : QueryRequest} {p : Int}
  (hr : r.pageSize = some p) (hp : 1 ≤ p) {q : CompiledQuery α} (hq : compile m c r = .ok q)
  {fetch : CompiledQuery α → Option (Page β)} {selected : β → Bool}
  {sort : List β → Option (List β)} {items : List β}
  (hfetch : ∀ page, fetch { q with page := page } =
    pageOf? { q with page := page } selected sort items)
include hc hr hp hq hfetch

/-- The matches are sorted for every page anew, and the page is cut out of them. -/
theorem runQuery?_onPage {k : Nat} (hk : 1 ≤ k) :
    runQuery? m c false (r.onPage k) fetch =
      (sort (items.filter selected)).map fun sorted =>
        .ok (.ofItems ((⟨min k (pageLimit - 1), min p.toNat (max 1 c.paging.maxPageSize)⟩ :
            PageRequest).slice sorted)
          ⟨min k (pageLimit - 1), min p.toNat (max 1 c.paging.maxPageSize)⟩
          (items.filter selected).length) := by
  have hcompile := compile_onPage m c r k
  rw [hq, hr, normalize_onPage hc hk hp] at hcompile
  rw [runQuery?_of_compile hcompile]
  show (fetch _).map _ = _
  rw [hfetch, pageOf?, Option.map_map]
  rfl

/-- What is sorted is shown page by page. -/
theorem showsAll {sorted : List β} (hsort : sort (items.filter selected) = some sorted)
    (hperm : sorted.Perm (items.filter selected)) :
    ShowsAll (fun k => runQuery? m c false (r.onPage k) fetch) (items.filter selected) sorted
      (min p.toNat (max 1 c.paging.maxPageSize)) where
  walk := by
    have hsize : 1 ≤ min p.toNat (max 1 c.paging.maxPageSize) := by omega
    refine ⟨_, _, fun k hk => ?_, walk_pageAt sorted hsize⟩
    rw [runQuery?_onPage hc hr hp hq hfetch hk, hsort, ← hperm.length_eq]
    rfl
  perm := hperm

end Answers

/-- What a store answers that sorts what passes the filter and cuts out a page. -/
theorem answers {c : QueryConfig} (hc : c.paging.Fits) {r : QueryRequest} {p : Int}
    (hr : r.pageSize = some p) (hp : 1 ≤ p) {q : CompiledQuery α} (hq : compile m c r = .ok q)
    {fetch : CompiledQuery α → Option (Page β)} {selected : β → Bool}
    {compare : β → β → Ordering} {items : List β} (s : Sorter)
    (hfetch : ∀ page, fetch { q with page := page } =
      pageOf? { q with page := page } selected (s.run compare) items) :
    Answers (fun k => runQuery? m c false (r.onPage k) fetch) compare (items.filter selected)
      (min p.toNat (max 1 c.paging.maxPageSize)) where
  shows := by
    cases hsort : s.run compare (items.filter selected) with
    | none =>
      refine .inl fun k hk => ?_
      rw [runQuery?_onPage hc hr hp hq hfetch hk, hsort, Option.map_none]
    | some sorted => exact .inr ⟨sorted, showsAll hc hr hp hq hfetch hsort (s.perm hsort)⟩
  sorted htotal := by
    obtain ⟨sorted, hsort, hsorted⟩ := s.sorts htotal
    exact ⟨sorted, showsAll hc hr hp hq hfetch hsort hsorted.perm, hsorted⟩

/-- Numbers of pages are positive and no sum of them is too large. Requests that differ only in the
page number all fail with the same fault, or they are answered page by page, in a store of rows and
in one of documents: all break off with the sort, or their pages are a walk through all matches.
They are a walk, and in order, if the plan orders the matches by a total preorder. -/
theorem walk_pages (m : FieldMap α) {c : QueryConfig} (hc : c.paging.Fits) (r : QueryRequest)
    {p : Int} (hr : r.pageSize = some p) (hp : 1 ≤ p) (s : Sorter) :
    (∀ page pageSize : Option Int,
      let n := PageRequest.normalize c.paging page pageSize
      1 ≤ n.page ∧ 1 ≤ n.pageSize ∧ n.pageSize ≤ max c.paging.maxPageSize 1 ∧
        n.skip < sizeLimit ∧ n.skip + n.limit < sizeLimit) ∧
    ((∃ e, ∀ k, compile m c (r.onPage k) = .error e) ∨
      ∃ q, compile m c r = .ok q ∧
        let size := min p.toNat (max 1 c.paging.maxPageSize)
        (∀ rows : List α,
          Answers (fun k => runQuery? m c false (r.onPage k) ((⟨rows⟩ : RowStore α).fetchBy s))
            q.sort.compare (rows.filter q.accepts) size) ∧
        ∀ documents : List Json,
          Answers
            (fun k => runQuery? m c false (r.onPage k) ((⟨documents⟩ : DocumentStore).fetchBy s))
            q.sort.compareDocuments (documents.filter q.documentFilter.selects) size) := by
  refine ⟨PageRequest.normalize_bounds hc, ?_⟩
  cases hq : compile m c r with
  | error e =>
    refine .inl ⟨e, fun k => ?_⟩
    rw [compile_onPage, hq]
    rfl
  | ok q =>
    exact .inr ⟨q, rfl, fun rows => answers hc hr hp hq s fun _ => rfl,
      fun documents => answers hc hr hp hq s fun _ => rfl⟩

/-- Five parts on pages of two. -/
def pagedRequest : QueryRequest where
  sort := some "name,-netSize"
  pageSize := some 2

def pagedRows : List Part := (.string "axle", .null, .null) :: partRows

theorem walk_pages_pagedRows :
    ({} : PagingConfig).Fits ∧ pagedRequest.pageSize = some 2 ∧ (1 : Int) ≤ 2 ∧
      ∃ q items, compile partMap {} pagedRequest = .ok q ∧
        ShowsAll (fun k => runQuery? partMap {} false (pagedRequest.onPage k)
            ((⟨pagedRows⟩ : RowStore Part).fetchBy .cautious))
          (pagedRows.filter q.accepts) items 2 ∧
        SortsStably q.sort.compare (pagedRows.filter q.accepts) items := by
  have hfits : ({} : PagingConfig).Fits := ⟨by decide, by decide, by decide⟩
  refine ⟨hfits, rfl, by decide, ?_⟩
  obtain ⟨-, ⟨e, he⟩ | ⟨q, hq, hrows, -⟩⟩ :=
    walk_pages partMap (c := {}) hfits pagedRequest rfl (by decide) .cautious
  · have hok : (compile partMap {} (pagedRequest.onPage 1)).isOk = true := by decide
    rw [he] at hok
    cases hok
  · have htotal : TotalPreorderOn (SortPlan.parse partMap pagedRequest.sort).compare pagedRows := by
      decide +kernel
    rw [← (compile_eq_ok hq).2] at htotal
    obtain ⟨items, hshows, hsorted⟩ :=
      (hrows pagedRows).sorted (htotal.subset fun a ha => (List.mem_filter.1 ha).1)
    exact ⟨q, items, hq, hshows, hsorted⟩

end CompiledQuery

/-- An entry that is even with two others leaves them no place but their own. -/
theorem not_sortsStably_of_even {compare : β → β → Ordering} {a b c : β}
    (heven : ∀ x ∈ [a, b, c], compare b x = .eq) (hgt : compare a c = .gt) (sorted : List β) :
    ¬ SortsStably compare [a, b, c] sorted := by
  intro h
  have hall : ∀ {xs : List β}, (∀ x ∈ xs, x ∈ [a, b, c]) →
      xs.filter (fun x => compare b x == .eq) = xs := fun hxs =>
    List.filter_eq_self.2 fun x hx => beq_iff_eq.2 (heven x (hxs x hx))
  have hties := h.ties b (by simp)
  rw [hall fun x hx => h.perm.mem_iff.1 hx, hall fun x hx => hx] at hties
  have hordered := h.ordered
  rw [hties] at hordered
  exact (List.pairwise_cons.1 hordered).1 c (by simp) hgt

/-- Parts with the sizes 9, NaN and 3. -/
def unevenRows : List Part :=
  [(.string "bolt", .number (.ofInt 9), .null), (.string "axle", .number .nan, .null),
   (.string "cog", .number (.ofInt 3), .null)]

/-- NaN is even with every number, so that parts with the sizes 9, NaN and 3 have no order in which
ties stay as they were: the sort that runs here shows them as they stand, 9 before 3, and one that
breaks off shows no page. The same holds of documents with the sizes 9, a text and 3. -/
theorem walk_pages_fails :
    let plan := SortPlan.parse partMap sizeRequest.sort
    (runQuery partMap {} false sizeRequest (⟨unevenRows⟩ : RowStore Part).fetch).toOption.map
        Page.items = some unevenRows ∧
      plan.compare (.string "cog", .number (.ofInt 3), .null)
        (.string "bolt", .number (.ofInt 9), .null) = .lt ∧
      (∀ sorted, ¬ SortsStably plan.compare unevenRows sorted) ∧
      runQuery? partMap {} false sizeRequest
        ((⟨unevenRows⟩ : RowStore Part).fetchBy .cautious) = none ∧
      ∀ sorted,
        ¬ SortsStably plan.compareDocuments (mixedRows.map partMap.toDocument) sorted := by
  refine ⟨by decide +kernel, by decide +kernel, ?_, Option.isNone_iff_eq_none.1 (by decide +kernel),
    ?_⟩
  · exact not_sortsStably_of_even (by decide +kernel) (by decide +kernel)
  · exact not_sortsStably_of_even (by decide +kernel) (by decide +kernel)

end EntityQuery
