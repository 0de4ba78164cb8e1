import EntityQuery.Proofs.Query.Backends
import EntityQuery.Proofs.Query.Projection
import EntityQuery.Sql.Statement

/-!
# Which relations are loaded

A relation is included if a part of the request's text names it in any case (`Relation.Included`).
The statements of a query load the included relations (`mem_resolve_parse`), and an entity is shown
with these and with those that only the text of the projection mentions (`writes_iff`): a relation
of the second kind is shown without being loaded.
-/

namespace EntityQuery

variable {α : Type}

/-- A part of the text names the relation, in any case. -/
def Relation.Included (text : Option String) (r : Relation α) : Prop :=
  ∃ part ∈ Text.commaParts (text.getD ""), Text.lower part = r.key

namespace IncludeSet

/-! ## The names of a text -/

theorem mem_insertName {name n : String} {ns : List String} :
    n ∈ insertName name ns ↔ n = name ∨ n ∈ ns := by
  induction ns with
  | nil => exact List.mem_cons
  | cons k ks ih =>
    unfold insertName
    split
    · exact List.mem_cons
    · rename_i heq
      have hname : name = k := String.toList_inj.1 (Std.compare_eq_iff_eq.1 heq)
      rw [hname, List.mem_cons, ← or_assoc, or_self]
    · rw [List.mem_cons, ih, List.mem_cons]
      exact or_left_comm

theorem mem_foldl_insertName {known ns : List String} {n : String} :
    n ∈ known.foldl (fun ns n => insertName n ns) ns ↔ n ∈ known ∨ n ∈ ns := by
  induction known generalizing ns with
  | nil => simp
  | cons k ks ih =>
    rw [List.foldl_cons, ih, mem_insertName, List.mem_cons, ← or_assoc, or_comm (a := n ∈ ks)]

variable {m : FieldMap α} {text : Option String}

theorem relation?_eq_some {name : String} {r : Relation α} :
    m.relation? name = some r ↔ r ∈ m.relations.entries ∧ Text.lower name = r.key := by
  constructor
  · intro h
    obtain ⟨hr, hkey⟩ := Registry.mem_of_find? h
    exact ⟨hr, hkey.symm⟩
  · rintro ⟨hr, hkey⟩
    rw [FieldMap.relation?, hkey]
    exact m.relations.find?_key hr

/-- The set holds the keys of the relations that the text names. -/
theorem mem_names_parse {n : String} :
    n ∈ (parse m text).names ↔ ∃ r ∈ m.relations.entries, r.Included text ∧ r.key = n := by
  rw [parse, mem_foldl_insertName, or_iff_left List.not_mem_nil, List.mem_filterMap]
  constructor
  · rintro ⟨part, hpart, hknown⟩
    obtain ⟨r, hr, rfl⟩ := Option.map_eq_some_iff.1 hknown
    obtain ⟨hmem, hkey⟩ := relation?_eq_some.1 hr
    exact ⟨r, hmem, ⟨part, hpart, hkey⟩, hkey.symm⟩
  · rintro ⟨r, hr, ⟨part, hpart, hkey⟩, rfl⟩
    refine ⟨part, hpart, ?_⟩
    rw [knownName?, relation?_eq_some.2 ⟨hr, hkey⟩, Option.map_some, hkey]

theorem contains_parse {r : Relation α} (hr : r ∈ m.relations.entries) :
    (parse m text).contains r.name = true ↔ r.Included text := by
  rw [contains, List.contains_iff_mem, mem_names_parse]
  constructor
  · rintro ⟨r', -, ⟨part, hpart, hkey'⟩, hkey⟩
    exact ⟨part, hpart, hkey'.trans hkey⟩
  · exact fun h => ⟨r, hr, h, rfl⟩

/-- The relations of the set are those that the text names. -/
theorem mem_resolve_parse {r : Relation α} :
    r ∈ (parse m text).resolve m ↔ r ∈ m.relations.entries ∧ r.Included text := by
  rw [resolve, List.mem_filterMap]
  constructor
  · rintro ⟨n, hn, hr⟩
    obtain ⟨hmem, hkey⟩ := relation?_eq_some.1 hr
    obtain ⟨r', -, ⟨part, hpart, hpart'⟩, rfl⟩ := mem_names_parse.1 hn
    refine ⟨hmem, part, hpart, ?_⟩
    rw [← hkey, ← hpart', Text.lower_lower]
  · rintro ⟨hr, hincluded⟩
    refine ⟨r.key, mem_names_parse.2 ⟨r, hr, hincluded, rfl⟩, relation?_eq_some.2 ⟨hr, ?_⟩⟩
    exact Text.lower_lower r.name

end IncludeSet

/-! ## Statements and entities -/

namespace CompiledQuery

open Projection Sql

variable {m : FieldMap α} {c : QueryConfig} {r : QueryRequest} {q : CompiledQuery α}

/-- Entities are written with the relation. -/
def Writes (q : CompiledQuery α) (rel : Relation α) : Prop :=
  ∃ names, (rel, names) ∈ shownRelations q.map q.projection q.includes

/-- The statements of the query load the relation. -/
def Loads (q : CompiledQuery α) (rel : Relation α) : Prop :=
  relationStatement rel ∈ (Statements.ofQuery q).relations

theorem mem_relations_ofQuery (h : compile m c r = .ok q) {s : RelationStatement} :
    s ∈ (Statements.ofQuery q).relations ↔
      ∃ rel ∈ m.relations.entries, rel.Included r.relations ∧ relationStatement rel = s := by
  rw [eq_of_compile h]
  show s ∈ ((IncludeSet.parse m r.relations).resolve m).map relationStatement ↔ _
  rw [List.mem_map]
  simp only [IncludeSet.mem_resolve_parse, and_assoc]

theorem loads_iff (h : compile m c r = .ok q) {rel : Relation α}
    (hrel : rel ∈ m.relations.entries) : q.Loads rel ↔ rel.Included r.relations := by
  rw [Loads, mem_relations_ofQuery h]
  constructor
  · rintro ⟨rel', hrel', hincluded, heq⟩
    have hname : rel'.name = rel.name := congrArg RelationStatement.relation heq
    rwa [← FieldMap.eq_of_relation_name hrel' hrel hname]
  · exact fun hincluded => ⟨rel, hrel, hincluded, rfl⟩

theorem writes_iff (h : compile m c r = .ok q) {rel : Relation α}
    (hrel : rel ∈ m.relations.entries) :
    q.Writes rel ↔ rel.Included r.relations ∨ Named (Mentions r.fields) rel.name := by
  rw [eq_of_compile h, ← IncludeSet.contains_parse hrel]
  constructor
  · rintro ⟨names, hnames⟩
    exact (narrows_of_selection? (mem_shownRelations.1 hnames).2).1
  · intro hshows
    cases hnames : selection? (parse r.fields) (IncludeSet.parse m r.relations) rel.name with
    | none => exact absurd hshows (selection?_eq_none hnames)
    | some names => exact ⟨names, mem_shownRelations.2 ⟨hrel, hnames⟩⟩

/-- What is written of a relation stands in the object of every entity. -/
theorem get?_project_of_writes (h : compile m c r = .ok q) {rel : Relation α}
    (hrel : rel ∈ m.relations.entries) (hwrites : q.Writes rel) (entity : α) :
    ∃ names, (q.project entity).get? rel.name = some (rel.project entity names) := by
  have hshows : ShowsRelation r.fields (IncludeSet.parse m r.relations) rel :=
    ((writes_iff h hrel).1 hwrites).imp_left (IncludeSet.contains_parse hrel).2
  have hexactly := showsExactly_project m r.fields (IncludeSet.parse m r.relations) entity
  obtain ⟨names, -, hvalue⟩ := hexactly.relation rel hrel hshows
  rw [project, eq_of_compile h]
  exact ⟨names, hvalue⟩

/-- Each statement that loads a relation is for one that the request includes and that every entity
is written with. Of the relations that entities are written with, those that are included are
loaded, and the others are there since the text of the projection mentions them. -/
theorem loads_included (h : compile m c r = .ok q) :
    (∀ s ∈ (Statements.ofQuery q).relations, ∃ rel ∈ m.relations.entries,
      relationStatement rel = s ∧ rel.Included r.relations ∧ q.Writes rel) ∧
      ∀ rel ∈ m.relations.entries,
        (q.Loads rel ↔ rel.Included r.relations) ∧
          (q.Writes rel ↔ q.Loads rel ∨ Named (Mentions r.fields) rel.name) ∧
          (q.Writes rel → ∀ entity, ∃ names,
            (q.project entity).get? rel.name = some (rel.project entity names)) := by
  refine ⟨fun s hs => ?_, fun rel hrel => ⟨loads_iff h hrel, ?_, get?_project_of_writes h hrel⟩⟩
  · obtain ⟨rel, hrel, hincluded, heq⟩ := (mem_relations_ofQuery h).1 hs
    exact ⟨rel, hrel, heq, hincluded, (writes_iff h hrel).2 (.inl hincluded)⟩
  · rw [writes_iff h hrel, loads_iff h hrel]

/-- A company with its organization, and with the names of assets that nobody loads. -/
def companyRequest : QueryRequest where
  fields := some "name,assets.name"
  relations := some "Organization"

theorem loads_included_companyRequest :
    ∃ q, compile Company.map {} companyRequest = .ok q ∧
      ∃ rel ∈ Company.map.relations.entries, rel.key = "organization" ∧
        relationStatement rel ∈ (Statements.ofQuery q).relations ∧
        ∀ company, ∃ names,
          (q.project company).get? rel.name = some (rel.project company names) := by
  have hok : (compile Company.map {} companyRequest).isOk = true := by decide
  have hsome : (Company.map.relation? "organization").isSome = true := by decide
  obtain ⟨rel, hrelation⟩ := Option.isSome_iff_exists.1 hsome
  obtain ⟨hrel, hkey⟩ := IncludeSet.relation?_eq_some.1 hrelation
  have hincluded : rel.Included companyRequest.relations := by
    refine ⟨"Organization", by decide, ?_⟩
    rw [← hkey]
    decide
  cases h : compile Company.map {} companyRequest with
  | error e =>
    rw [h] at hok
    cases hok
  | ok q =>
    obtain ⟨hloads, hwrites, hshows⟩ := (loads_included h).2 rel hrel
    refine ⟨q, rfl, rel, hrel, ?_, hloads.2 hincluded, ?_⟩
    · rw [← hkey]
      decide
    · exact hshows (hwrites.2 (.inl (hloads.2 hincluded)))

/-- An asset with the name of its company, which is not included. -/
def assetRequest : QueryRequest where
  fields := some "name,company.name"

def press : Asset := .create .nil ⟨⟨2023, 7, 3, by decide⟩, .midnight⟩ .nil "press"

/-- The company is written since the text mentions it, and no statement loads it. -/
theorem company_not_loaded :
    (compile Asset.map {} assetRequest).toOption.map
        (fun q => ((q.project press).map Prod.fst, (Statements.ofQuery q).relations)) =
      some (["name", "company"], []) := by
  decide

end CompiledQuery

end EntityQuery
