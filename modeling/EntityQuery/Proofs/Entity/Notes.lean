import EntityQuery.Entity.Maps
import EntityQuery.Proofs.Query.Visibility

/-!
# Notes for the staff

The notes on assets reach stored documents, and no query shows them: entities that differ only in
notes, on themselves or on the neighbours that were loaded with them, are answered alike
(`notes_unseen`).
-/

namespace EntityQuery

/-! ## Entities without notes -/

mutual

/-- The asset, and all that was loaded with it, without notes. -/
def Asset.withoutNotes : Asset → Asset
  | { id, companyId, name, description, serialNumber, category, purchasePrice, purchaseDate,
      isActive, createdAt, updatedAt, company, .. } =>
    { id, companyId, name, description, serialNumber, category, purchasePrice, purchaseDate,
      isActive, internalNotes := none, createdAt, updatedAt,
      company := companyWithoutNotes company }

def Company.withoutNotes : Company → Company
  | { id, organizationId, name, taxId, email, isActive, createdAt, assets, organization } =>
    { id, organizationId, name, taxId, email, isActive, createdAt,
      assets := assetsWithoutNotes assets
      organization := organizationWithoutNotes organization }

def Organization.withoutNotes : Organization → Organization
  | { id, name, description, isActive, createdAt, companies } =>
    { id, name, description, isActive, createdAt, companies := companiesWithoutNotes companies }

def companyWithoutNotes : Option Company → Option Company
  | none => none
  | some c => some c.withoutNotes

def organizationWithoutNotes : Option Organization → Option Organization
  | none => none
  | some o => some o.withoutNotes

def assetsWithoutNotes : List Asset → List Asset
  | [] => []
  | a :: as => a.withoutNotes :: assetsWithoutNotes as

def companiesWithoutNotes : List Company → List Company
  | [] => []
  | c :: cs => c.withoutNotes :: companiesWithoutNotes cs

end

theorem assetsWithoutNotes_eq (as : List Asset) :
    assetsWithoutNotes as = as.map Asset.withoutNotes := by
  induction as with
  | nil => rfl
  | cons a as ih => rw [assetsWithoutNotes, ih, List.map_cons]

theorem companiesWithoutNotes_eq (cs : List Company) :
    companiesWithoutNotes cs = cs.map Company.withoutNotes := by
  induction cs with
  | nil => rfl
  | cons c cs ih => rw [companiesWithoutNotes, ih, List.map_cons]

/-! ## Fields -/

theorem mem_of_mem_register {α : Type} {key : α → String} {x y : α} {ys : List α}
    (h : y ∈ register key x ys) : y = x ∨ y ∈ ys := by
  induction ys with
  | nil => exact .inl (List.mem_singleton.1 h)
  | cons z zs ih =>
    unfold register at h
    split at h
    · rcases List.mem_cons.1 h with h | h
      · exact .inl h
      · exact .inr (List.mem_cons_of_mem _ h)
    · rcases List.mem_cons.1 h with rfl | h
      · exact .inr List.mem_cons_self
      · exact (ih h).imp_right (List.mem_cons_of_mem _)

/-- A registry holds nothing but what was registered. -/
theorem Registry.mem_of_mem_ofList {α : Type} {key : α → String} {x : α} {xs : List α}
    (h : x ∈ (Registry.ofList xs : Registry α key).entries) : x ∈ xs := by
  have hfold : ∀ (r : Registry α key), x ∈ (xs.foldl Registry.insert r).entries →
      x ∈ r.entries ∨ x ∈ xs := by
    clear h
    induction xs with
    | nil => exact fun r h => .inl h
    | cons y ys ih =>
      intro r h
      rcases ih (r.insert y) h with h | h
      · rcases mem_of_mem_register h with rfl | h
        · exact .inr List.mem_cons_self
        · exact .inl h
      · exact .inr (List.mem_cons_of_mem _ h)
  rw [Registry.ofList_eq] at h
  exact (hfold .empty h).resolve_left List.not_mem_nil

/-- The fields of a map are among those of its draft. -/
theorem Draft.mem_fields_of_build {α : Type} {d : Draft α} {f : Field α}
    (h : f ∈ d.build.fields.entries) : f ∈ d.fields := Registry.mem_of_mem_ofList h

theorem Draft.mem_relations_of_build {α : Type} {d : Draft α} {r : Relation α}
    (h : r ∈ d.build.relations.entries) : r ∈ d.relations := Registry.mem_of_mem_ofList h

theorem FieldMap.key_of_defaultSort? {α : Type} {m : FieldMap α} {name : String}
    {direction direction' : SortDirection} {f : Field α}
    (hname : m.defaultSortName = some (name, direction))
    (h : m.defaultSort? = some (f, direction')) : f.key = Text.lower name := by
  rw [defaultSort?, hname] at h
  obtain ⟨g, hg, heq⟩ := Option.map_eq_some_iff.1 h
  cases heq
  exact (Registry.mem_of_find? hg).2

/-- The notes are the only field of assets that is lost. -/
theorem Asset.read_withoutNotes {f : Field Asset} (hf : f ∈ Asset.fields.fields)
    (hname : f.name ≠ "internalNotes") (a : Asset) : f.read a.withoutNotes = f.read a := by
  simp only [Asset.fields, Draft.start, Draft.field, Draft.path, Draft.notFilterable,
    Draft.notSortable, Draft.notSelectable, Draft.modify, Draft.modifyLast, List.nil_append,
    List.cons_append, List.mem_cons] at hf
  cases a
  rcases hf with rfl | rfl | rfl | rfl | rfl | rfl | rfl | rfl | rfl | rfl | rfl | rfl | hf
  any_goals rfl
  · exact absurd rfl hname
  · cases hf

/-- Queries may not look at the notes. -/
theorem Asset.not_uses_notes {f : Field Asset} (hf : f ∈ Asset.fields.fields)
    (hname : f.name = "internalNotes") : ¬ Asset.map.Uses f := by
  simp only [Asset.fields, Draft.start, Draft.field, Draft.path, Draft.notFilterable,
    Draft.notSortable, Draft.notSelectable, Draft.modify, Draft.modifyLast, List.nil_append,
    List.cons_append, List.mem_cons] at hf
  rcases hf with rfl | rfl | rfl | rfl | rfl | rfl | rfl | rfl | rfl | rfl | rfl | rfl | hf
  any_goals exact absurd hname (of_decide_eq_false rfl)
  · rintro (h | h | h | ⟨direction, h⟩)
    · cases h
    · cases h
    · cases h
    · have hkey := FieldMap.key_of_defaultSort? rfl h
      exact absurd hkey (by decide)
  · cases hf

theorem Company.read_withoutNotes {f : Field Company} (hf : f ∈ Company.fields.fields)
    (c : Company) : f.read c.withoutNotes = f.read c := by
  simp only [Company.fields, Draft.start, Draft.field, Draft.path, Draft.notSortable, Draft.modify,
    Draft.modifyLast, List.nil_append, List.cons_append, List.mem_cons] at hf
  cases c
  rcases hf with rfl | rfl | rfl | rfl | rfl | rfl | rfl | hf
  any_goals rfl
  cases hf

theorem Organization.read_withoutNotes {f : Field Organization}
    (hf : f ∈ Organization.fields.fields) (o : Organization) :
    f.read o.withoutNotes = f.read o := by
  simp only [Organization.fields, Draft.start, Draft.field, Draft.path, Draft.notSortable,
    Draft.modify, Draft.modifyLast, List.nil_append, List.cons_append, List.mem_cons] at hf
  cases o
  rcases hf with rfl | rfl | rfl | rfl | rfl | hf
  any_goals rfl
  cases hf

/-! ## Neighbours -/

theorem Asset.select_withoutNotes (names : List String) (a : Asset) :
    Asset.table.select a.withoutNotes names = Asset.table.select a names := by
  refine FieldTable.select_congr (fun f hf hopen => ?_) names
  have hf := Draft.mem_fields_of_build hf
  refine Asset.read_withoutNotes hf (fun hname => ?_) a
  exact Asset.not_uses_notes hf hname (.inr (.inr (.inl hopen)))

theorem Company.select_withoutNotes (names : List String) (c : Company) :
    Company.table.select c.withoutNotes names = Company.table.select c names :=
  FieldTable.select_congr
    (fun _ hf _ => Company.read_withoutNotes (Draft.mem_fields_of_build hf) c) names

theorem Organization.select_withoutNotes (names : List String) (o : Organization) :
    Organization.table.select o.withoutNotes names = Organization.table.select o names :=
  FieldTable.select_congr
    (fun _ hf _ => Organization.read_withoutNotes (Draft.mem_fields_of_build hf) o) names

theorem showOne_company (company : Option Company) (names : List String) :
    showOne Company.table (companyWithoutNotes company) names =
      showOne Company.table company names := by
  cases company with
  | none => rfl
  | some c => exact Company.select_withoutNotes names c

theorem showOne_organization (organization : Option Organization) (names : List String) :
    showOne Organization.table (organizationWithoutNotes organization) names =
      showOne Organization.table organization names := by
  cases organization with
  | none => rfl
  | some o => exact Organization.select_withoutNotes names o

theorem showAll_assets (assets : List Asset) (names : List String) :
    showAll Asset.table (assetsWithoutNotes assets) names = showAll Asset.table assets names := by
  rw [assetsWithoutNotes_eq, showAll, showAll, List.map_map]
  exact congrArg Json.array
    (List.map_congr_left fun a _ => Asset.select_withoutNotes names a)

theorem showAll_companies (companies : List Company) (names : List String) :
    showAll Company.table (companiesWithoutNotes companies) names =
      showAll Company.table companies names := by
  rw [companiesWithoutNotes_eq, showAll, showAll, List.map_map]
  exact congrArg Json.array
    (List.map_congr_left fun c _ => Company.select_withoutNotes names c)

/-! ## Maps -/

theorem Asset.map_hides : Asset.map.Hides Asset.withoutNotes where
  fields := by
    intro f hf huses a
    have hf : f ∈ Asset.fields.fields := Draft.mem_fields_of_build hf
    exact Asset.read_withoutNotes hf (fun hname => Asset.not_uses_notes hf hname huses) a
  relations := by
    intro r hr a names
    cases List.mem_singleton.1 (Draft.mem_relations_of_build hr)
    cases a
    exact showOne_company _ names

theorem Company.map_hides : Company.map.Hides Company.withoutNotes where
  fields := by
    intro f hf _ c
    exact Company.read_withoutNotes (Draft.mem_fields_of_build hf) c
  relations := by
    intro r hr c names
    cases c
    rcases List.mem_cons.1 (Draft.mem_relations_of_build hr) with rfl | hr
    · exact showAll_assets _ names
    · cases List.mem_singleton.1 hr
      exact showOne_organization _ names

theorem Organization.map_hides : Organization.map.Hides Organization.withoutNotes where
  fields := by
    intro f hf _ o
    exact Organization.read_withoutNotes (Draft.mem_fields_of_build hf) o
  relations := by
    intro r hr o names
    cases List.mem_singleton.1 (Draft.mem_relations_of_build hr)
    cases o
    exact showAll_companies _ names

/-! ## Answers -/

/-- Entities that differ only in notes are shown alike. -/
theorem FieldMap.Hides.shownPage_eq {α : Type} {m : FieldMap α} {change : α → α}
    (h : m.Hides change) (c : QueryConfig) (cancelled : Bool) (r : QueryRequest)
    {rows rows' : List α} (hrows : rows.map change = rows'.map change) :
    shownPage m c cancelled r rows = shownPage m c cancelled r rows' := by
  rw [← shownPage_map h, hrows, shownPage_map h]

/-- No request tells apart entities that differ only in the notes on assets. -/
theorem notes_unseen (c : QueryConfig) (cancelled : Bool) (r : QueryRequest) :
    (∀ rows rows' : List Asset, rows.map Asset.withoutNotes = rows'.map Asset.withoutNotes →
      shownPage Asset.map c cancelled r rows = shownPage Asset.map c cancelled r rows') ∧
    (∀ rows rows' : List Company,
      rows.map Company.withoutNotes = rows'.map Company.withoutNotes →
        shownPage Company.map c cancelled r rows = shownPage Company.map c cancelled r rows') ∧
    ∀ rows rows' : List Organization,
      rows.map Organization.withoutNotes = rows'.map Organization.withoutNotes →
        shownPage Organization.map c cancelled r rows =
          shownPage Organization.map c cancelled r rows' :=
  ⟨fun _ _ => Asset.map_hides.shownPage_eq c cancelled r,
    fun _ _ => Company.map_hides.shownPage_eq c cancelled r,
    fun _ _ => Organization.map_hides.shownPage_eq c cancelled r⟩

/-- An asset with notes, in its company and its organization. -/
def lathe (notes : Option String) : Asset :=
  { Asset.create .nil ⟨⟨2024, 1, 1, by decide⟩, .midnight⟩ .nil "lathe" with
    internalNotes := notes }

def works (notes : Option String) : Company :=
  { Company.create .nil ⟨⟨2024, 1, 1, by decide⟩, .midnight⟩ .nil "works" with
    assets := [lathe notes, lathe none] }

def concern (notes : Option String) : Organization :=
  { Organization.create .nil ⟨⟨2024, 1, 1, by decide⟩, .midnight⟩ "concern" with
    companies := [works notes] }

/-- A request that asks for the notes wherever it can. -/
def pryingRequest : QueryRequest where
  sort := some "-internalNotes,name"
  relations := some "assets,companies"
  fields := some "name,internalNotes,assets.internalNotes,companies"

theorem notes_unseen_pryingRequest :
    (lathe none).internalNotes ≠ (lathe (some "leaks")).internalNotes ∧
      shownPage Asset.map {} false pryingRequest [lathe none] =
        shownPage Asset.map {} false pryingRequest [lathe (some "leaks")] ∧
      shownPage Company.map {} false pryingRequest [works none] =
        shownPage Company.map {} false pryingRequest [works (some "leaks")] ∧
      shownPage Organization.map {} false pryingRequest [concern none] =
        shownPage Organization.map {} false pryingRequest [concern (some "leaks")] := by
  obtain ⟨hassets, hcompanies, horganizations⟩ := notes_unseen {} false pryingRequest
  exact ⟨by decide, hassets _ _ rfl, hcompanies _ _ rfl, horganizations _ _ rfl⟩

end EntityQuery
