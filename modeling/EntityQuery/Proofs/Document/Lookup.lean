import EntityQuery.Document.Path
import EntityQuery.FieldMap.Basic
import EntityQuery.Proofs.RoundTrip.Value

/-!
# Stored documents read at their paths

`FieldMap.PlainPaths` is what makes stored documents readable: document paths are distinct, are
looked up as a whole since they have no dot, and are no operator that joins filters.
`valueAt_toDocument` says that a document then holds, at the path of each field, the value that was
stored there. An entity with leap seconds that documents do not hold has the document of another
one (`FieldMap.SettlesTo.toDocument_eq`).
-/

namespace EntityQuery

variable {α : Type}

namespace Document

/-- The keys of a filter that join filters. -/
def joinOperators : List String := ["$and", "$or", "$nor"]

end Document

/-- Document paths are distinct, without dots and no operators. -/
structure FieldMap.PlainPaths (m : FieldMap α) : Prop where
  distinct : (m.fields.entries.map Field.path).Nodup
  dotless : ∀ f ∈ m.fields.entries, '.' ∉ f.path.toList
  notJoin : ∀ f ∈ m.fields.entries, f.path ∉ Document.joinOperators

/-- Every field of an entity holds a value that documents hold without loss. -/
def FieldMap.Stores (m : FieldMap α) (entity : α) : Prop :=
  ∀ f ∈ m.fields.entries, (f.read entity).Storable

/-- Every field holds a value in range, and the other entity holds the settled one. -/
def FieldMap.SettlesTo (m : FieldMap α) (entity settled : α) : Prop :=
  ∀ f ∈ m.fields.entries, (f.read entity).InRange ∧ f.read settled = (f.read entity).settled

namespace FieldMap.SettlesTo

variable {m : FieldMap α} {entity settled : α}

theorem toDocument_eq (h : m.SettlesTo entity settled) :
    m.toDocument entity = m.toDocument settled := by
  refine congrArg (fun ms => Json.object (Json.Members.ofList ms)) (List.map_congr_left ?_)
  intro f hf
  rw [(h f hf).2, Value.toDocument_settled]

theorem stores (h : m.SettlesTo entity settled) : m.Stores settled := by
  intro f hf
  rw [(h f hf).2]
  exact Value.storable_settled (h f hf).1

end FieldMap.SettlesTo

namespace Json.Members

theorem insert_of_not_mem {ms : Members} {key : String} (v : Json) (h : key ∉ ms.map Prod.fst) :
    ms.insert key v = ms ++ [(key, v)] := by
  induction ms with
  | nil => rfl
  | cons m ms ih =>
    simp only [List.map_cons, List.mem_cons, not_or] at h
    have hne : ¬ m.1 = key := fun e => h.1 e.symm
    simp only [insert, if_neg hne, ih h.2, List.cons_append]

theorem foldl_insert (done ms : Members) (h : ((done ++ ms).map Prod.fst).Nodup) :
    ms.foldl (fun acc m => acc.insert m.1 m.2) done = done ++ ms := by
  induction ms generalizing done with
  | nil => simp
  | cons m ms ih =>
    have hm : m.1 ∉ done.map Prod.fst := by
      rw [List.map_append, List.map_cons, List.nodup_append] at h
      intro hmem
      exact h.2.2 _ hmem _ (by simp) rfl
    rw [List.foldl_cons, insert_of_not_mem m.2 hm, ih]
    · simp
    · simpa using h

/-- Members with distinct keys stand as they were listed. -/
theorem ofList_of_nodup {ms : Members} (h : (ms.map Prod.fst).Nodup) : ofList ms = ms :=
  foldl_insert [] ms (by simpa using h)

end Json.Members

theorem Text.splitOnChar_of_not_mem {sep : Char} {cs : List Char} (h : sep ∉ cs) :
    Text.splitOnChar sep cs = [cs] := by
  induction cs with
  | nil => rfl
  | cons c cs ih =>
    simp only [List.mem_cons, not_or] at h
    have hne : ¬ c = sep := fun e => h.1 e.symm
    simp only [Text.splitOnChar, if_neg hne, ih h.2]

namespace Document

theorem lookup_of_dotless {path : String} (h : '.' ∉ path.toList) (doc : Json) :
    lookup doc path = (doc.get? path).getD .null := by
  simp only [lookup, segments, Text.splitOnChar_of_not_mem h, List.map_cons, List.map_nil,
    String.ofList_toList, descend]
  cases doc.get? path <;> rfl

/-- A document has one member for each field. -/
theorem get?_toDocument {m : FieldMap α} (hm : (m.fields.entries.map Field.path).Nodup)
    (entity : α) (name : String) :
    (m.toDocument entity).get? name =
      (m.fields.entries.find? (·.path = name)).map fun f => (f.read entity).toDocument := by
  have hkeys : ((m.fields.entries.map fun f => (f.path, (f.read entity).toDocument)).map
      Prod.fst).Nodup := by
    rwa [List.map_map]
  rw [FieldMap.toDocument, Json.Members.ofList_of_nodup hkeys, Json.get?, Json.Members.get?,
    List.find?_map, Option.map_map]
  rfl

/-- The member of a field is called by the whole path of the field. -/
theorem find?_path {m : FieldMap α} (hm : (m.fields.entries.map Field.path).Nodup) {f : Field α}
    (hf : f ∈ m.fields.entries) : m.fields.entries.find? (·.path = f.path) = some f :=
  let byPath : Registry (Field α) Field.path := ⟨m.fields.entries, hm⟩
  byPath.find?_key hf

theorem lookup_toDocument_of_dotless {m : FieldMap α}
    (hm : (m.fields.entries.map Field.path).Nodup) {f : Field α} (hf : f ∈ m.fields.entries)
    (hdot : '.' ∉ f.path.toList) (entity : α) :
    lookup (m.toDocument entity) f.path = (f.read entity).toDocument := by
  rw [lookup_of_dotless hdot, get?_toDocument hm, find?_path hm hf, Option.map_some,
    Option.getD_some]

/-- A stored document holds the stored form of each field at the field's path. -/
theorem lookup_toDocument {m : FieldMap α} (hm : m.PlainPaths) {f : Field α}
    (hf : f ∈ m.fields.entries) (entity : α) :
    lookup (m.toDocument entity) f.path = (f.read entity).toDocument :=
  lookup_toDocument_of_dotless hm.distinct hf (hm.dotless f hf) entity

theorem valueAt_toDocument {m : FieldMap α} (hm : m.PlainPaths) {f : Field α}
    (hf : f ∈ m.fields.entries) {entity : α} (hv : (f.read entity).Storable) :
    valueAt (m.toDocument entity) f.path = (f.read entity).dropZeroSign := by
  rw [valueAt, lookup_toDocument hm hf, Value.ofDocument_toDocument hv]

end Document

/-! ## A map with plain paths -/

/-- Three values as an entity with a name, a size and a day. -/
abbrev Part := Value × Value × Value

def partFields : List (Field Part) :=
  [⟨"name", "name", "name", .string, fun p => p.1, true, true, true⟩,
   ⟨"netSize", "net_size", "netSize", .number, fun p => p.2.1, true, true, true⟩,
   ⟨"madeAt", "made_at", "madeAt", .dateTime, fun p => p.2.2, true, true, true⟩]

def partMap : FieldMap Part := ⟨"Part", ⟨partFields, by decide⟩, .empty, none⟩

theorem partMap_plainPaths : partMap.PlainPaths where
  distinct := by decide
  dotless := by decide
  notJoin := by decide

end EntityQuery
