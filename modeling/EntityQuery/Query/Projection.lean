import EntityQuery.Query.IncludeSet

/-!
# Projections

A projection says which fields of an entity are shown. Its text form is a list of names; a name
behind a dot narrows a relation to some of its fields. A `Projection` has one entry for each first
name. `project` shows an entity: without a projection all fields that may be selected, else those
named; and each relation that is included or named. Names that may not be selected are passed over.
-/

namespace EntityQuery

structure ProjectionEntry where
  name : String
  /-- The names behind the dot. -/
  fields : List String
  /-- Was the name given without a dot, so that everything is shown? -/
  whole : Bool
  deriving DecidableEq, Repr

/-- The narrowing of a relation; no names mean all fields. -/
def ProjectionEntry.selection (e : ProjectionEntry) : List String :=
  if e.whole then [] else e.fields

abbrev Projection := List ProjectionEntry

namespace Projection

open Text (eqIgnoreAsciiCase)

/-- What stands before the first dot, and what stands behind it. -/
def splitDot (cs : List Char) : List Char × Option (List Char) :=
  match cs.dropWhile (· ≠ '.') with
  | [] => (cs, none)
  | _ :: rest => (cs.takeWhile (· ≠ '.'), some rest)

/-- An entry with one more mention of it. -/
def ProjectionEntry.mention (e : ProjectionEntry) (child : Option String) : ProjectionEntry :=
  match child with
  | none => { e with whole := true }
  | some c =>
    if c = "" ∨ e.fields.any (eqIgnoreAsciiCase · c) then e
    else { e with fields := e.fields ++ [c] }

/-- The entries with one more mention of a name. -/
def mention (name : String) (child : Option String) : Projection → Projection
  | [] => [ProjectionEntry.mention ⟨name, [], false⟩ child]
  | e :: es =>
    if eqIgnoreAsciiCase e.name name then ProjectionEntry.mention e child :: es
    else e :: mention name child es

/-- One part of the text added. A part without a name is passed over. -/
def addPart (p : Projection) (part : String) : Projection :=
  match splitDot part.toList with
  | (_, none) => p.mention part none
  | (front, some back) =>
    let name := Text.trimChars front
    if name = [] then p
    else p.mention (String.ofList name) (some (String.ofList (Text.trimChars back)))

/-- The projection that a text asks for; nothing if it names nothing. -/
def parse (raw : Option String) : Option Projection :=
  match (Text.commaParts (raw.getD "")).foldl addPart [] with
  | [] => none
  | p => some p

def entryFor? (p : Projection) (name : String) : Option ProjectionEntry :=
  p.find? fun e => eqIgnoreAsciiCase e.name name

end Projection

variable {α : Type}

/-- The fields of the entity itself that are shown. -/
def shownFields (m : FieldMap α) : Option Projection → List (Field α)
  | none => m.fields.entries.filter (·.canSelect)
  | some p => (p.filter (·.whole)).filterMap fun e => FieldTable.selectable? m.fields e.name

/-- The relations that are shown, each with its narrowing. -/
def shownRelations (m : FieldMap α) (p : Option Projection) (includes : IncludeSet) :
    List (Relation α × List String) :=
  m.relations.entries.filterMap fun r =>
    match p.bind (·.entryFor? r.name) with
    | some e => some (r, e.selection)
    | none => if includes.contains r.name then some (r, []) else none

/-- An entity as it is shown. -/
def project (m : FieldMap α) (p : Option Projection) (includes : IncludeSet) (entity : α) :
    Json.Members :=
  .ofList
    ((shownFields m p).map (fun f => (f.name, (f.read entity).toJson)) ++
      (shownRelations m p includes).map fun r => (r.1.name, r.1.project entity r.2))

end EntityQuery
