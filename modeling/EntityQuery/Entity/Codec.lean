import EntityQuery.Entity.Types
import EntityQuery.Json.Fields
import EntityQuery.Time.Reader

/-!
# Entities in JSON

Entities are written with their fields by name. Neighbours that were not loaded are left out. Read
back, optional fields of an object may be missing; of an array only the neighbours at its end.
-/

namespace EntityQuery

namespace Json

def guid? (j : Json) : Option Guid := j.string?.bind Guid.read?

def instant? (j : Json) : Option Instant := j.string?.bind Instant.readOffset?

def ofGuid (g : Guid) : Json := .string g.text

def ofInstant (i : Instant) : Json := .string i.text

/-- A finite number as a float. -/
def ofNumber (x : Number) : Json := if x.isFinite then .float x else .null

def ofOption {α : Type} (write : α → Json) : Option α → Json
  | none => .null
  | some a => write a

end Json

/-! ## Writing -/

open Json (ofGuid ofInstant ofNumber ofOption)

mutual

def Asset.toJson (a : Asset) : Json :=
  .object ([("id", ofGuid a.id), ("companyId", ofGuid a.companyId), ("name", .string a.name),
    ("description", ofOption .string a.description),
    ("serialNumber", ofOption .string a.serialNumber), ("category", .string a.category),
    ("purchasePrice", ofOption ofNumber a.purchasePrice),
    ("purchaseDate", ofOption ofInstant a.purchaseDate), ("isActive", .bool a.isActive),
    ("internalNotes", ofOption .string a.internalNotes), ("createdAt", ofInstant a.createdAt),
    ("updatedAt", ofOption ofInstant a.updatedAt)] ++
      match a with
      | { company := none, .. } => []
      | { company := some c, .. } => [("company", c.toJson)])

def Company.toJson (c : Company) : Json :=
  .object ([("id", ofGuid c.id), ("organizationId", ofGuid c.organizationId),
    ("name", .string c.name), ("taxId", ofOption .string c.taxId),
    ("email", ofOption .string c.email), ("isActive", .bool c.isActive),
    ("createdAt", ofInstant c.createdAt)] ++
      (match c with
      | { assets := [], .. } => []
      | { assets := a :: as, .. } => [("assets", .array (a.toJson :: assetsToJson as))]) ++
      match c with
      | { organization := none, .. } => []
      | { organization := some o, .. } => [("organization", o.toJson)])

def Organization.toJson (o : Organization) : Json :=
  .object ([("id", ofGuid o.id), ("name", .string o.name),
    ("description", ofOption .string o.description), ("isActive", .bool o.isActive),
    ("createdAt", ofInstant o.createdAt)] ++
      match o with
      | { companies := [], .. } => []
      | { companies := c :: cs, .. } => [("companies", .array (c.toJson :: companiesToJson cs))])

def assetsToJson : List Asset → List Json
  | [] => []
  | a :: as => a.toJson :: assetsToJson as

def companiesToJson : List Company → List Json
  | [] => []
  | c :: cs => c.toJson :: companiesToJson cs

end

/-! ## Reading -/

/-- A JSON value beside the entities, and the lists of entities, that it stands for. -/
structure EntityPart where
  json : Json
  asset : Option Asset
  company : Option Company
  organization : Option Organization
  assets : Option (List Asset)
  companies : Option (List Company)

namespace EntityPart

/-- A field that has to be there. -/
def required {α : Type} (read : Json → Option α) : Option EntityPart → Option α
  | some p => read p.json
  | none => none

/-- A field that may be null, and may be missing if `mayMiss`. -/
def optional {α : Type} (mayMiss : Bool) (read : Json → Option α) :
    Option EntityPart → Option (Option α)
  | some p => p.json.nullable? read
  | none => if mayMiss then some none else none

/-- A loaded neighbour, null or missing if there is none. -/
def neighbour {α : Type} (read : EntityPart → Option α) : Option EntityPart → Option (Option α)
  | some p =>
    match p.json with
    | .null => some none
    | _ => (read p).map some
  | none => some none

/-- A list of loaded neighbours, missing if there is none. -/
def neighbours {α : Type} (read : EntityPart → Option (List α)) :
    Option EntityPart → Option (List α)
  | some p => read p
  | none => some []

/-- May optional fields be missing? -/
def isNamed : Json.Fields EntityPart → Bool
  | .named _ => true
  | .placed _ => false

def asset? (fs : Json.Fields EntityPart) : Option Asset := do
  let miss := isNamed fs
  match ← fs.collect? ["id", "companyId", "name", "description", "serialNumber", "category",
    "purchasePrice", "purchaseDate", "isActive", "internalNotes", "createdAt", "updatedAt",
    "company"] with
  | [id, companyId, name, description, serialNumber, category, purchasePrice, purchaseDate,
      isActive, internalNotes, createdAt, updatedAt, company] =>
    pure {
      id := ← required Json.guid? id
      companyId := ← required Json.guid? companyId
      name := ← required Json.string? name
      description := ← optional miss Json.string? description
      serialNumber := ← optional miss Json.string? serialNumber
      category := ← required Json.string? category
      purchasePrice := ← optional miss Json.number? purchasePrice
      purchaseDate := ← optional miss Json.instant? purchaseDate
      isActive := ← required Json.bool? isActive
      internalNotes := ← optional miss Json.string? internalNotes
      createdAt := ← required Json.instant? createdAt
      updatedAt := ← optional miss Json.instant? updatedAt
      company := ← neighbour EntityPart.company company }
  | _ => none

def company? (fs : Json.Fields EntityPart) : Option Company := do
  let miss := isNamed fs
  match ← fs.collect? ["id", "organizationId", "name", "taxId", "email", "isActive", "createdAt",
    "assets", "organization"] with
  | [id, organizationId, name, taxId, email, isActive, createdAt, assets, organization] =>
    pure {
      id := ← required Json.guid? id
      organizationId := ← required Json.guid? organizationId
      name := ← required Json.string? name
      taxId := ← optional miss Json.string? taxId
      email := ← optional miss Json.string? email
      isActive := ← required Json.bool? isActive
      createdAt := ← required Json.instant? createdAt
      assets := ← neighbours EntityPart.assets assets
      organization := ← neighbour EntityPart.organization organization }
  | _ => none

def organization? (fs : Json.Fields EntityPart) : Option Organization := do
  let miss := isNamed fs
  match ← fs.collect? ["id", "name", "description", "isActive", "createdAt", "companies"] with
  | [id, name, description, isActive, createdAt, companies] =>
    pure {
      id := ← required Json.guid? id
      name := ← required Json.string? name
      description := ← optional miss Json.string? description
      isActive := ← required Json.bool? isActive
      createdAt := ← required Json.instant? createdAt
      companies := ← neighbours EntityPart.companies companies }
  | _ => none

mutual

def ofJson : Json → EntityPart
  | .array js =>
    let parts := ofItems js
    let fs := Json.Fields.placed parts
    ⟨.array js, asset? fs, company? fs, organization? fs, parts.mapM asset, parts.mapM company⟩
  | .object ms =>
    let fs := Json.Fields.named (ofMembers ms)
    ⟨.object ms, asset? fs, company? fs, organization? fs, none, none⟩
  | j => ⟨j, none, none, none, none, none⟩

def ofItems : List Json → List EntityPart
  | [] => []
  | j :: js => ofJson j :: ofItems js

def ofMembers : List (String × Json) → List (String × EntityPart)
  | [] => []
  | (k, j) :: ms => (k, ofJson j) :: ofMembers ms

end

end EntityPart

def Asset.ofJson? (j : Json) : Option Asset := (EntityPart.ofJson j).asset

def Company.ofJson? (j : Json) : Option Company := (EntityPart.ofJson j).company

def Organization.ofJson? (j : Json) : Option Organization := (EntityPart.ofJson j).organization

end EntityQuery
