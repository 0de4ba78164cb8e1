import EntityQuery.FieldMap.Draft
import Mathlib.Data.List.Induction

/-!
# Field maps from calls

A map is built by a sequence of calls: registrations, and modifiers that change the field registered
last. `Draft.registrations` reads off the fields that the calls register, each with the modifiers
that follow it up to the next one. Of the registrations of a name the map keeps the last one, at the
place of the first, and its index leads there (`Draft.build_keeps_last`).
-/

namespace EntityQuery

/-! ## What a registry keeps -/

namespace Registry

variable {α : Type} {key : α → String}

/-- The registry holds the entries of a table. A key finds the last entry registered under it, by
the index as by a search; the entries stand in the order in which their keys came first, and the
index leads to each from its key and nowhere else. -/
structure KeepsLast (r : Registry α key) (t : Indexed α) (xs : List α) : Prop where
  entries : r.entries = t.entries
  found : ∀ k, r.find? k = (xs.filter (key · = k)).getLast?
  keys : r.keys = (xs.map key).eraseDups
  place : ∀ k i, t.place? k = some i ↔ ∃ x, t.entries[i]? = some x ∧ key x = k
  indexed : ∀ k, t.find? k = r.find? k

theorem ofList_concat (xs : List α) (x : α) :
    (ofList (xs ++ [x]) : Registry α key) = (ofList xs).insert x := by
  rw [ofList_eq, ofList_eq, List.foldl_append]
  rfl

theorem find?_ofList (xs : List α) (k : String) :
    (ofList xs : Registry α key).find? k = (xs.filter (key · = k)).getLast? := by
  induction xs using List.reverseRecOn with
  | nil => rfl
  | append_singleton xs x ih =>
    rw [ofList_concat, find?_insert, ih, List.filter_append]
    by_cases h : key x = k
    · rw [if_pos h, List.filter_cons_of_pos (by simpa using h)]
      exact List.getLast?_concat.symm
    · rw [if_neg h, List.filter_cons_of_neg (by simpa using h), List.filter_nil, List.append_nil]

theorem keys_ofList (xs : List α) :
    (ofList xs : Registry α key).keys = (xs.map key).eraseDups := by
  induction xs using List.reverseRecOn with
  | nil => rfl
  | append_singleton xs x ih =>
    rw [ofList_concat, keys_insert, ih, List.map_append, List.eraseDups_append]
    by_cases h : key x ∈ xs.map key
    · have hnone : (List.map key [x]).removeAll (xs.map key) = [] := by
        simpa [List.removeAll] using h
      rw [if_pos (List.mem_eraseDups.2 h), hnone, List.eraseDups_nil, List.append_nil]
    · have hsome : (List.map key [x]).removeAll (xs.map key) = [key x] := by
        simpa [List.removeAll] using h
      rw [if_neg (fun hmem => h (List.mem_eraseDups.1 hmem)), hsome]
      rfl

theorem keepsLast_ofList (xs : List α) :
    (ofList xs : Registry α key).KeepsLast (Indexed.ofList key xs) xs := by
  obtain ⟨hexact, -⟩ := Indexed.ofList_of_exact xs Indexed.exact_empty (empty : Registry α key) rfl
  exact ⟨rfl, find?_ofList xs, keys_ofList xs, hexact, hexact.find?_eq⟩

end Registry

/-! ## Calls -/

namespace Draft

variable {α : Type}

/-- What can be asked of a draft. -/
inductive Call (α : Type) where
  | field (name : String) (type : FieldType) (read : α → Value)
  | column (name : String)
  | path (path : String)
  | notFilterable
  | notSortable
  | notSelectable
  | relation (r : Relation α)
  | defaultSort (name : String) (direction : SortDirection)

namespace Call

def apply (d : Draft α) : Call α → Draft α
  | field name type read => d.field name type read
  | column name => d.column name
  | path p => d.path p
  | notFilterable => d.notFilterable
  | notSortable => d.notSortable
  | notSelectable => d.notSelectable
  | relation r => d.relation r
  | defaultSort name direction => d.defaultSort name direction

/-- The field that a call registers. -/
def field? : Call α → Option (Field α)
  | field name type read =>
    some
      { name, type, read
        column := Sql.snakeCase name
        path := name
        canFilter := true
        canSort := true
        canSelect := true }
  | _ => none

def relation? : Call α → Option (Relation α)
  | relation r => some r
  | _ => none

def defaultSort? : Call α → Option (String × SortDirection)
  | defaultSort name direction => some (name, direction)
  | _ => none

/-- What a modifier makes of a field; other calls leave it as it is. -/
def modify (f : Field α) : Call α → Field α
  | column name => { f with column := name }
  | path p => { f with path := p }
  | notFilterable => { f with canFilter := false }
  | notSortable => { f with canSort := false }
  | notSelectable => { f with canSelect := false }
  | _ => f

def isModifier : Call α → Bool
  | column _ | path _ | notFilterable | notSortable | notSelectable => true
  | field .. | relation _ | defaultSort .. => false

end Call

def ofCalls (entity : String) (calls : List (Call α)) : Draft α :=
  calls.foldl Call.apply (start entity)

/-- The map that calls build. -/
def mapOf (entity : String) (calls : List (Call α)) : FieldMap α := (ofCalls entity calls).build

/-- A field with the modifiers that come before the next field is registered. -/
def modified (f : Field α) (calls : List (Call α)) : Field α :=
  (calls.takeWhile (·.field?.isNone)).foldl Call.modify f

/-- The fields that calls register, in their order, each with its own modifiers. -/
def registrations : List (Call α) → List (Field α)
  | [] => []
  | c :: calls =>
    match c.field? with
    | some f => modified f calls :: registrations calls
    | none => registrations calls

/-! ## Steps -/

@[simp] theorem modifyLast_id (fs : List (Field α)) : modifyLast (fun f => f) fs = fs := by
  fun_induction modifyLast (fun f => f) fs with
  | case1 => rfl
  | case2 => rfl
  | case3 x xs _ ih => rw [ih]

theorem modifyLast_concat (change : Field α → Field α) (fs : List (Field α)) (f : Field α) :
    modifyLast change (fs ++ [f]) = fs ++ [change f] := by
  induction fs with
  | nil => rfl
  | cons g fs ih =>
    rw [List.cons_append, modifyLast, ih, List.cons_append]
    simp

theorem modifyLast_modifyLast (change change' : Field α → Field α) (fs : List (Field α)) :
    modifyLast change' (modifyLast change fs) = modifyLast (fun f => change' (change f)) fs := by
  induction fs using List.reverseRecOn with
  | nil => rfl
  | append_singleton fs f => rw [modifyLast_concat, modifyLast_concat, modifyLast_concat]

/-- One call: a field is added, or the last one is modified. -/
theorem fields_apply (c : Call α) (d : Draft α) :
    (c.apply d).fields =
      match c.field? with
      | some f => d.fields ++ [f]
      | none => modifyLast c.modify d.fields := by
  cases c with
  | field | column | path | notFilterable | notSortable | notSelectable => rfl
  | relation | defaultSort => exact (modifyLast_id d.fields).symm

theorem apply_modifier {c : Call α} (h : c.isModifier = true) (d : Draft α) :
    c.apply d = { d with fields := modifyLast c.modify d.fields } := by
  cases c with
  | column | path | notFilterable | notSortable | notSelectable => rfl
  | field | relation | defaultSort => cases h

theorem relations_apply (c : Call α) (d : Draft α) :
    (c.apply d).relations = d.relations ++ c.relation?.toList := by
  cases c with
  | relation => rfl
  | field | column | path | notFilterable | notSortable | notSelectable | defaultSort =>
    exact (List.append_nil _).symm

theorem defaultSortName_apply (c : Call α) (d : Draft α) :
    (c.apply d).defaultSortName = c.defaultSort?.or d.defaultSortName := by
  cases c <;> rfl

theorem entity_apply (c : Call α) (d : Draft α) : (c.apply d).entity = d.entity := by
  cases c <;> rfl

/-! ## Runs -/

theorem modified_cons (f : Field α) (c : Call α) (calls : List (Call α)) :
    modified f (c :: calls) = if c.field?.isNone then modified (c.modify f) calls else f := by
  rw [modified, List.takeWhile_cons]
  split <;> rfl

/-- Calls modify the field registered before them, and register fields of their own. -/
theorem fields_foldl (calls : List (Call α)) (d : Draft α) :
    (calls.foldl Call.apply d).fields =
      modifyLast (modified · calls) d.fields ++ registrations calls := by
  -- For any draft: the first call decides which field the modifiers behind it will reach.
  induction calls generalizing d with
  | nil => exact (modifyLast_id d.fields).symm.trans (List.append_nil _).symm
  | cons c calls ih =>
    rw [List.foldl_cons, ih, fields_apply, registrations]
    simp only [modified_cons]
    cases hc : c.field? with
    | some f =>
      simp [modifyLast_concat]
    | none =>
      simp [modifyLast_modifyLast]

theorem fields_ofCalls (entity : String) (calls : List (Call α)) :
    (ofCalls entity calls).fields = registrations calls :=
  fields_foldl calls (start entity)

theorem ofCalls_concat (entity : String) (calls : List (Call α)) (c : Call α) :
    ofCalls entity (calls ++ [c]) = c.apply (ofCalls entity calls) := by
  rw [ofCalls, List.foldl_append]
  rfl

theorem relations_ofCalls (entity : String) (calls : List (Call α)) :
    (ofCalls entity calls).relations = calls.filterMap Call.relation? := by
  induction calls using List.reverseRecOn with
  | nil => rfl
  | append_singleton calls c ih =>
    rw [ofCalls_concat, relations_apply, ih, List.filterMap_append]
    cases h : c.relation? <;> simp [h]

theorem defaultSortName_ofCalls (entity : String) (calls : List (Call α)) :
    (ofCalls entity calls).defaultSortName = (calls.filterMap Call.defaultSort?).getLast? := by
  induction calls using List.reverseRecOn with
  | nil => rfl
  | append_singleton calls c ih =>
    rw [ofCalls_concat, defaultSortName_apply, ih, List.filterMap_append]
    cases h : c.defaultSort? <;> simp [h]

theorem entity_ofCalls (entity : String) (calls : List (Call α)) :
    (ofCalls entity calls).entity = entity := by
  induction calls using List.reverseRecOn with
  | nil => rfl
  | append_singleton calls c ih => rw [ofCalls_concat, entity_apply, ih]

/-- A modifier changes the field that was registered last and nothing else. -/
theorem ofCalls_modifier (entity : String) (calls : List (Call α)) {c : Call α}
    (hc : c.isModifier = true) :
    (registrations calls = [] → ofCalls entity (calls ++ [c]) = ofCalls entity calls) ∧
      ∀ earlier last, registrations calls = earlier ++ [last] →
        ofCalls entity (calls ++ [c]) =
          { ofCalls entity calls with fields := earlier ++ [c.modify last] } := by
  rw [ofCalls_concat, apply_modifier hc, fields_ofCalls]
  refine ⟨fun h => ?_, fun earlier last h => ?_⟩
  · rw [h, modifyLast, ← h, ← fields_ofCalls entity calls]
  · rw [h, modifyLast_concat]

theorem fields_mapOf (entity : String) (calls : List (Call α)) :
    (mapOf entity calls).fields = .ofList (registrations calls) := by
  rw [mapOf, build, fields_ofCalls]

theorem relations_mapOf (entity : String) (calls : List (Call α)) :
    (mapOf entity calls).relations = .ofList (calls.filterMap Call.relation?) := by
  rw [mapOf, build, relations_ofCalls]

/-- A map keeps the last registration of each name, with the modifiers of that registration alone,
in the order in which names came first; and its indexes lead to the entries of their keys. -/
theorem build_keeps_last (entity : String) (calls : List (Call α)) :
    (∀ c : Call α, c.isModifier = true →
      (registrations calls = [] → ofCalls entity (calls ++ [c]) = ofCalls entity calls) ∧
      ∀ earlier last, registrations calls = earlier ++ [last] →
        ofCalls entity (calls ++ [c]) =
          { ofCalls entity calls with fields := earlier ++ [c.modify last] }) ∧
    (∀ name, (mapOf entity calls).get? name =
      ((registrations calls).filter (Text.lower ·.name = Text.lower name)).getLast?) ∧
    (∀ name, (mapOf entity calls).relation? name =
      ((calls.filterMap Call.relation?).filter (Text.lower ·.name = Text.lower name)).getLast?) ∧
    (mapOf entity calls).fields.KeepsLast (.ofList Field.key (ofCalls entity calls).fields)
      (registrations calls) ∧
    (mapOf entity calls).relations.KeepsLast (.ofList Relation.key (ofCalls entity calls).relations)
      (calls.filterMap Call.relation?) ∧
    (mapOf entity calls).entity = entity ∧
    (mapOf entity calls).defaultSortName = (calls.filterMap Call.defaultSort?).getLast? := by
  refine ⟨fun c hc => ofCalls_modifier entity calls hc, fun name => ?_, fun name => ?_, ?_, ?_,
    entity_ofCalls entity calls, defaultSortName_ofCalls entity calls⟩
  · rw [FieldMap.get?, FieldTable.get?, fields_mapOf]
    exact Registry.find?_ofList _ _
  · rw [FieldMap.relation?, relations_mapOf]
    exact Registry.find?_ofList _ _
  · rw [fields_mapOf, fields_ofCalls]
    exact Registry.keepsLast_ofList _
  · rw [relations_mapOf, relations_ofCalls]
    exact Registry.keepsLast_ofList _

example : (mapOf "Part" [.field "name" .string id, .notSortable, .field "size" .number id,
    .field "NAME" .string id, .path "title"]).fields.entries.map
      (fun f => (f.name, f.path, f.canSort)) = [("NAME", "title", true), ("size", "size", true)] := by
  decide

end Draft

end EntityQuery
