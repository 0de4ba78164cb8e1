import EntityQuery.Proofs.Query.Backends
import EntityQuery.Proofs.Query.Projection

/-!
# What queries see

A query looks at an entity through the fields that are open to filters, sorts or projections,
through the field of the default sort, and through the relations. A change of entities that none of
these shows is not seen in the answer to any request (`shownPage_map`).
-/

namespace EntityQuery

variable {α : Type} {m : FieldMap α}

namespace FieldMap

/-- Queries may look at a field. -/
def Uses (m : FieldMap α) (f : Field α) : Prop :=
  f.canFilter = true ∨ f.canSort = true ∨ f.canSelect = true ∨
    ∃ direction, m.defaultSort? = some (f, direction)

/-- A change of entities is not seen through the fields and relations of a map. -/
structure Hides (m : FieldMap α) (change : α → α) : Prop where
  fields : ∀ f ∈ m.fields.entries, m.Uses f → ∀ a, f.read (change a) = f.read a
  relations : ∀ r ∈ m.relations.entries, ∀ a names,
    r.project (change a) names = r.project a names

end FieldMap

/-! ## Filters -/

namespace Predicate

/-- The fields that are tested. -/
def fields : Predicate α → List (Field α)
  | compare f _ _ | text f _ _ _ | isIn f _ _ | isNull f _ => [f]
  | and l r | or l r => l.fields ++ r.fields
  | not p => p.fields

/-- The verdict on an entity hangs on the fields that are tested. -/
theorem evaluate_congr {p : Predicate α} {a b : α} (h : ∀ f ∈ p.fields, f.read a = f.read b) :
    p.evaluate a = p.evaluate b := by
  induction p with
  | compare f op v | text f test needle negated | isIn f vs negated | isNull f negated =>
    have hf : f.read a = f.read b := h f (List.mem_singleton.2 rfl)
    simp only [evaluate, hf]
  | and l r ihl ihr | or l r ihl ihr =>
    have hl := ihl fun f hf => h f (List.mem_append_left _ hf)
    have hr := ihr fun f hf => h f (List.mem_append_right _ hf)
    rw [evaluate, evaluate, hl, hr]
  | not p ih => rw [evaluate, evaluate, ih h]

end Predicate

namespace Node

theorem fields_textPredicate {f : Field α} {op : CallOp} {test : TextTest} {negated : Bool}
    {vs : List Value} {p : Predicate α} (h : textPredicate f op test negated vs = .ok p) :
    p.fields = [f] := by
  unfold textPredicate at h
  split at h
  · cases h
    rfl
  · cases h

/-- A call tests the field that it is put to. -/
theorem eq_of_mem_fields_callPredicate {f g : Field α} {op : CallOp} {vs : List Value}
    {p : Predicate α} (h : callPredicate f op vs = .ok p) (hg : g ∈ p.fields) : g = f := by
  cases op with
  | contains | notContains | startsWith | endsWith =>
    rw [fields_textPredicate h] at hg
    exact List.mem_singleton.1 hg
  | isIn | notIn | isNull | isNotNull =>
    cases h
    exact List.mem_singleton.1 hg
  | between =>
    rcases vs with _ | ⟨low, _ | ⟨high, _ | ⟨third, rest⟩⟩⟩
    · cases h
    · cases h
    · cases h
      simpa [Predicate.fields] using hg
    · cases h

/-- Valid filters test only fields that are open to filters. -/
theorem canFilter_of_mem_fields {n : Node} (hn : n.WellTyped m) {p : Predicate α}
    (hp : n.toPredicate m = .ok p) {f : Field α} (hf : f ∈ p.fields) :
    f ∈ m.fields.entries ∧ f.canFilter = true := by
  induction hn generalizing p with
  | negation s _ ih =>
    obtain ⟨q, hq, rfl⟩ := toPredicate_negation_eq_ok hp
    exact ih hq hf
  | group s _ ih => exact ih hp hf
  | and s _ _ ihl ihr | or s _ _ ihl ihr =>
    obtain ⟨l, hl, hp⟩ := Except.bind_eq_ok hp
    obtain ⟨r, hr, hp⟩ := Except.bind_eq_ok hp
    cases hp
    rcases List.mem_append.1 hf with hf | hf
    · exact ihl hl hf
    · exact ihr hr hf
  | comparison s hadmits hv =>
    rw [toPredicate_comparison s hadmits hv] at hp
    cases hp
    cases List.mem_singleton.1 hf
    exact ⟨FieldMap.mem_of_get? hadmits.found, hadmits.canFilter⟩
  | call s hadmits _ hvs =>
    rw [toPredicate_call s hadmits hvs] at hp
    cases eq_of_mem_fields_callPredicate hp hf
    exact ⟨FieldMap.mem_of_get? hadmits.found, hadmits.canFilter⟩

end Node

namespace CompiledQuery

theorem accepts_congr {c : QueryConfig} {r : QueryRequest} {q : CompiledQuery α}
    (hq : compile m c r = .ok q) {a b : α}
    (h : ∀ f ∈ m.fields.entries, f.canFilter = true → f.read a = f.read b) :
    q.accepts a = q.accepts b := by
  rw [accepts, accepts]
  cases hfilter : q.filter with
  | none => rfl
  | some f =>
    obtain ⟨hcheck, hp, -⟩ := CompiledFilter.ofText_eq_ok (filter_eq_some hq hfilter)
    have hn := Node.wellTyped_of_validate (checkFilter_eq_ok hcheck).2
    refine Predicate.evaluate_congr fun g hg => ?_
    obtain ⟨hmem, hopen⟩ := Node.canFilter_of_mem_fields hn hp hg
    exact h g hmem hopen

end CompiledQuery

/-! ## Sorts -/

namespace SortPlan

theorem canSort_of_mem_usableKeys {raw : String} {k : SortKey α} (h : k ∈ usableKeys m raw) :
    k.field.canSort = true := by
  obtain ⟨part, _, hpart⟩ := List.mem_filterMap.1 h
  obtain ⟨f, hf, rfl⟩ := Option.map_eq_some_iff.1 hpart
  exact (Option.filter_eq_some_iff.1 hf).2

/-- A key of a plan is open to sorts, or it is the default. -/
theorem uses_of_mem_keys {raw : Option String} {k : SortKey α} (h : k ∈ (parse m raw).keys) :
    m.Uses k.field := by
  unfold parse at h
  split at h
  · split at h
    · rename_i f direction hdefault
      cases List.mem_singleton.1 h
      exact .inr (.inr (.inr ⟨direction, hdefault⟩))
    · cases h
  · exact .inr (.inl (canSort_of_mem_usableKeys (mem_of_mem_withoutRepeats h)))

end SortPlan

/-! ## Projections -/

/-- An entity is shown by its selectable fields. -/
theorem FieldTable.select_congr {t : FieldTable α} {a b : α}
    (h : ∀ f ∈ t.entries, f.canSelect = true → f.read a = f.read b) (names : List String) :
    t.select a names = t.select b names := by
  have hread : ∀ f ∈ (if names = [] then t.entries.filter (·.canSelect)
      else names.filterMap t.selectable?), f.read a = f.read b := by
    intro f hf
    split at hf
    · obtain ⟨hmem, hopen⟩ := List.mem_filter.1 hf
      exact h f hmem hopen
    · obtain ⟨name, _, hname⟩ := List.mem_filterMap.1 hf
      obtain ⟨hmem, hopen, -⟩ := FieldTable.selectable?_eq_some.1 hname
      exact h f hmem hopen
  exact congrArg (fun members => Json.object (Json.Members.ofList members))
    (List.map_congr_left fun f hf => congrArg (fun v => (f.name, Value.toJson v)) (hread f hf))

theorem canSelect_of_mem_shownFields {p : Option Projection} {f : Field α}
    (hf : f ∈ shownFields m p) : f ∈ m.fields.entries ∧ f.canSelect = true := by
  cases p with
  | none => exact List.mem_filter.1 hf
  | some p =>
    obtain ⟨e, _, he⟩ := List.mem_filterMap.1 hf
    obtain ⟨hmem, hopen, -⟩ := FieldTable.selectable?_eq_some.1 he
    exact ⟨hmem, hopen⟩

namespace FieldMap.Hides

variable {change : α → α}

theorem project (h : m.Hides change) (p : Option Projection) (includes : IncludeSet) (a : α) :
    EntityQuery.project m p includes (change a) = EntityQuery.project m p includes a := by
  unfold EntityQuery.project
  congr 2
  · refine List.map_congr_left fun f hf => ?_
    obtain ⟨hmem, hopen⟩ := canSelect_of_mem_shownFields hf
    rw [h.fields f hmem (.inr (.inr (.inl hopen)))]
  · exact List.map_congr_left fun r hr => by rw [h.relations r.1 (mem_shownRelations.1 hr).1]

theorem accepts (h : m.Hides change) {c : QueryConfig} {r : QueryRequest} {q : CompiledQuery α}
    (hq : CompiledQuery.compile m c r = .ok q) (a : α) : q.accepts (change a) = q.accepts a :=
  CompiledQuery.accepts_congr hq fun f hf hopen => h.fields f hf (.inl hopen) a

theorem compare (h : m.Hides change) {raw : Option String} (a b : α) :
    (SortPlan.parse m raw).compare (change a) (change b) = (SortPlan.parse m raw).compare a b := by
  refine SortPlan.compareBy_congr fun k hk => ?_
  have hread := h.fields k.field (SortPlan.mem_of_mem_keys_parse hk) (SortPlan.uses_of_mem_keys hk)
  rw [hread, hread]

theorem apply (h : m.Hides change) {raw : Option String} (items : List α) :
    (SortPlan.parse m raw).apply (items.map change) =
      ((SortPlan.parse m raw).apply items).map change :=
  stableSort_map (P := fun _ => True) (fun a b _ _ => by rw [h.compare]) fun _ _ => trivial

end FieldMap.Hides

/-! ## Answers -/

/-- The page that a store of rows answers a request with, its entities as the query shows them. -/
def shownPage (m : FieldMap α) (c : QueryConfig) (cancelled : Bool) (r : QueryRequest)
    (rows : List α) : Except QueryFailure (Page Json) :=
  runQuery m c cancelled r fun q =>
    ((⟨rows⟩ : RowStore α).fetch q).map fun entity => .object (q.project entity)

theorem Page.map_map {β γ δ : Type} (p : Page β) (f : β → γ) (g : γ → δ) :
    (p.map f).map g = p.map (g ∘ f) := by
  rw [Page.map, Page.map, Page.map, List.map_map]

namespace CompiledQuery

theorem project_change {change : α → α} (h : m.Hides change) {c : QueryConfig} {r : QueryRequest}
    {q : CompiledQuery α} (hq : compile m c r = .ok q) (a : α) :
    q.project (change a) = q.project a := by
  rw [project, project, map_of_compile hq, h.project]

end CompiledQuery

/-- A change that a map hides is not seen in any answer. -/
theorem shownPage_map {change : α → α} (h : m.Hides change) (c : QueryConfig) (cancelled : Bool)
    (r : QueryRequest) (rows : List α) :
    shownPage m c cancelled r (rows.map change) = shownPage m c cancelled r rows := by
  unfold shownPage runQuery
  cases hq : CompiledQuery.compile m c r with
  | error e => rfl
  | ok q =>
    cases cancelled with
    | true => rfl
    | false =>
      have hfetch : (⟨rows.map change⟩ : RowStore α).fetch q =
          ((⟨rows⟩ : RowStore α).fetch q).map change := by
        refine pageOf_map q (fun a _ => h.accepts hq a) ?_
        rw [(CompiledQuery.compile_eq_ok hq).2]
        exact h.apply _
      have hshown : (fun a => Json.object (q.project a)) ∘ change =
          fun a => Json.object (q.project a) :=
        funext fun a => congrArg Json.object (CompiledQuery.project_change h hq a)
      show Except.ok (Page.map _ _) = Except.ok (Page.map _ _)
      rw [hfetch, Page.map_map, hshown]

end EntityQuery
