import EntityQuery.Guid
import EntityQuery.Number.Basic
import EntityQuery.Time.Instant

/-!
# Assets, companies and organizations

Organizations own companies and companies own assets. An entity holds those of its neighbours that
were loaded with it.
-/

namespace EntityQuery

mutual

structure Asset where
  id : Guid
  companyId : Guid
  name : String
  description : Option String
  serialNumber : Option String
  category : String
  purchasePrice : Option Number
  purchaseDate : Option Instant
  isActive : Bool
  /-- Notes for the staff, which queries never show. -/
  internalNotes : Option String
  createdAt : Instant
  updatedAt : Option Instant
  company : Option Company

structure Company where
  id : Guid
  organizationId : Guid
  name : String
  taxId : Option String
  email : Option String
  isActive : Bool
  createdAt : Instant
  assets : List Asset
  organization : Option Organization

structure Organization where
  id : Guid
  name : String
  description : Option String
  isActive : Bool
  createdAt : Instant
  companies : List Company

end

/-- A new asset of a company, with nothing but a name. -/
def Asset.create (id : Guid) (createdAt : Instant) (companyId : Guid) (name : String) : Asset :=
  { id, companyId, name, description := none, serialNumber := none, category := "general"
    purchasePrice := none, purchaseDate := none, isActive := true, internalNotes := none
    createdAt, updatedAt := none, company := none }

def Company.create (id : Guid) (createdAt : Instant) (organizationId : Guid) (name : String) :
    Company :=
  { id, organizationId, name, taxId := none, email := none, isActive := true, createdAt
    assets := [], organization := none }

def Organization.create (id : Guid) (createdAt : Instant) (name : String) : Organization :=
  { id, name, description := none, isActive := true, createdAt, companies := [] }

end EntityQuery
