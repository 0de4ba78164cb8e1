import EntityQuery.Entity.Types
import EntityQuery.FieldMap.Draft

/-!
# The field maps of the entities

What queries may ask of assets, companies and organizations. The notes on assets are registered so
that they reach stored documents, and are closed to every use. Related entities are shown through
their own fields.
-/

namespace EntityQuery

namespace Value

def ofOption {α : Type} (f : α → Value) : Option α → Value
  | none => null
  | some a => f a

end Value

variable {α : Type}

/-- The entity as it appears at the other side of a relation. -/
def Draft.related (d : Draft α) : RelatedEntity :=
  ⟨d.entity, d.build.fields.entries.map (·.column)⟩

/-- The related entities of a list, each through its own fields. -/
def showAll (t : FieldTable α) (items : List α) (names : List String) : Json :=
  .array (items.map fun a => t.select a names)

/-- A related entity through its own fields, null if it was not loaded. -/
def showOne (t : FieldTable α) (item : Option α) (names : List String) : Json :=
  match item with
  | some a => t.select a names
  | none => .null

/-! ## Fields -/

def Asset.fields : Draft Asset :=
  (Draft.start "Asset")
    |>.field "id" .guid (fun a => .guid a.id) |>.path "_id"
    |>.field "companyId" .guid (fun a => .guid a.companyId)
    |>.field "name" .string (fun a => .string a.name)
    |>.field "description" .string (fun a => .ofOption .string a.description) |>.notSortable
    |>.field "serialNumber" .string (fun a => .ofOption .string a.serialNumber)
    |>.field "category" .string (fun a => .string a.category)
    |>.field "purchasePrice" .number (fun a => .ofOption .number a.purchasePrice)
    |>.field "purchaseDate" .dateTime (fun a => .ofOption .dateTime a.purchaseDate)
    |>.field "isActive" .boolean (fun a => .boolean a.isActive)
    |>.field "internalNotes" .string (fun a => .ofOption .string a.internalNotes)
    |>.notFilterable |>.notSortable |>.notSelectable
    |>.field "createdAt" .dateTime (fun a => .dateTime a.createdAt)
    |>.field "updatedAt" .dateTime (fun a => .ofOption .dateTime a.updatedAt)

def Company.fields : Draft Company :=
  (Draft.start "Company")
    |>.field "id" .guid (fun c => .guid c.id) |>.path "_id"
    |>.field "organizationId" .guid (fun c => .guid c.organizationId)
    |>.field "name" .string (fun c => .string c.name)
    |>.field "taxId" .string (fun c => .ofOption .string c.taxId)
    |>.field "email" .string (fun c => .ofOption .string c.email) |>.notSortable
    |>.field "isActive" .boolean (fun c => .boolean c.isActive)
    |>.field "createdAt" .dateTime (fun c => .dateTime c.createdAt)

def Organization.fields : Draft Organization :=
  (Draft.start "Organization")
    |>.field "id" .guid (fun o => .guid o.id) |>.path "_id"
    |>.field "name" .string (fun o => .string o.name)
    |>.field "description" .string (fun o => .ofOption .string o.description) |>.notSortable
    |>.field "isActive" .boolean (fun o => .boolean o.isActive)
    |>.field "createdAt" .dateTime (fun o => .dateTime o.createdAt)

/-! ## Maps -/

def Asset.table : FieldTable Asset := Asset.fields.build.fields

def Company.table : FieldTable Company := Company.fields.build.fields

def Organization.table : FieldTable Organization := Organization.fields.build.fields

def Asset.map : FieldMap Asset :=
  Asset.fields
    |>.relation ⟨"company", .belongsTo, "company_id", Company.fields.related,
      fun a names => showOne Company.table a.company names⟩
    |>.defaultSort "createdAt" .desc
    |>.build

def Company.map : FieldMap Company :=
  Company.fields
    |>.relation ⟨"assets", .hasMany, "company_id", Asset.fields.related,
      fun c names => showAll Asset.table c.assets names⟩
    |>.relation ⟨"organization", .belongsTo, "organization_id", Organization.fields.related,
      fun c names => showOne Organization.table c.organization names⟩
    |>.defaultSort "createdAt" .desc
    |>.build

def Organization.map : FieldMap Organization :=
  Organization.fields
    |>.relation ⟨"companies", .hasMany, "organization_id", Company.fields.related,
      fun o names => showAll Company.table o.companies names⟩
    |>.defaultSort "createdAt" .desc
    |>.build

/-! ## Entities by name -/

inductive EntityKind where
  | asset
  | company
  | organization
  deriving DecidableEq, Repr

namespace EntityKind

/-- The kind that a name stands for, in the singular or the plural and in any case. -/
def ofName? (name : String) : Option EntityKind :=
  match Text.lower name with
  | "asset" | "assets" => some asset
  | "company" | "companies" => some company
  | "organization" | "organizations" => some organization
  | _ => none

def related : EntityKind → RelatedEntity
  | asset => Asset.fields.related
  | company => Company.fields.related
  | organization => Organization.fields.related

end EntityKind

end EntityQuery
