import EntityQuery.Entity.Maps
import EntityQuery.Proofs.Query.Mentions

/-!
# What a projection shows

An object holds the fields and relations that its projection asks for and its map allows, and
nothing else (`project_exactly`). What the text asks for is told by its mentions alone.
-/

namespace EntityQuery

/-! ## Members -/

namespace Json.Members

theorem insert_eq_register (ms : Members) (key : String) (v : Json) :
    ms.insert key v = register Prod.fst (key, v) ms := by
  induction ms with
  | nil => rfl
  | cons m ms ih => rw [insert, register, ih]

theorem ofList_concat (ms : Members) (m : String × Json) :
    ofList (ms ++ [m]) = (ofList ms).insert m.1 m.2 := by
  rw [ofList, List.foldl_append]
  rfl

theorem nodup_ofList (ms : List (String × Json)) : ((ofList ms).map Prod.fst).Nodup := by
  induction ms using List.reverseRecOn with
  | nil => exact List.nodup_nil
  | append_singleton ms m ih =>
    rw [ofList_concat, insert_eq_register]
    exact nodup_map_register Prod.fst _ ih

/-- The value of a key is the last one that was listed for it. -/
theorem get?_ofList_append (xs ys : List (String × Json)) (key : String) :
    (ofList (xs ++ ys)).get? key = ((ofList ys).get? key).or ((ofList xs).get? key) := by
  induction ys using List.reverseRecOn with
  | nil =>
    rw [List.append_nil]
    rfl
  | append_singleton ys y ih =>
    rw [← List.append_assoc, ofList_concat, ofList_concat, get?_insert, get?_insert, ih]
    split <;> rfl

theorem get?_ofList_eq_none {ms : List (String × Json)} {key : String} :
    (ofList ms).get? key = none ↔ key ∉ ms.map Prod.fst := by
  induction ms using List.reverseRecOn with
  | nil => simp [ofList]
  | append_singleton ms m ih =>
    rw [ofList_concat, get?_insert, List.map_append, List.mem_append, not_or, ← ih]
    by_cases h : key = m.1 <;> simp [h]

/-- A key that has one value throughout has that value. -/
theorem get?_ofList_eq_some {ms : List (String × Json)} {key : String} {v : Json}
    (hmem : key ∈ ms.map Prod.fst) (h : ∀ m ∈ ms, m.1 = key → m.2 = v) :
    (ofList ms).get? key = some v := by
  induction ms using List.reverseRecOn with
  | nil => cases hmem
  | append_singleton ms m ih =>
    rw [ofList_concat, get?_insert]
    split
    · rename_i hkey
      rw [h m (by simp) hkey.symm]
    · rename_i hkey
      have hms : key ∈ ms.map Prod.fst := by simpa [hkey] using hmem
      exact ih hms fun m' hm' => h m' (List.mem_append_left _ hm')

theorem get?_eq_none {ms : Members} {key : String} :
    ms.get? key = none ↔ key ∉ ms.map Prod.fst := by
  induction ms with
  | nil => simp
  | cons m ms ih =>
    rw [get?_cons, List.map_cons, List.mem_cons, not_or, ← ih]
    by_cases h : m.1 = key
    · simp [h]
    · rw [if_neg h]
      exact ⟨fun hnone => ⟨fun heq => h heq.symm, hnone⟩, And.right⟩

theorem mem_keys_ofList {ms : List (String × Json)} {key : String} :
    key ∈ (ofList ms).map Prod.fst ↔ key ∈ ms.map Prod.fst := by
  rw [← not_iff_not, ← get?_eq_none, get?_ofList_eq_none]

end Json.Members

open Projection

variable {α : Type}

/-! ## Fields -/

/-- Entries of a registry with one key are one. -/
theorem Registry.eq_of_key {β : Type} {key : β → String} {registry : Registry β key} {x y : β}
    (hx : x ∈ registry.entries) (hy : y ∈ registry.entries) (h : key x = key y) : x = y := by
  have hfind := registry.find?_key hx
  rw [h, registry.find?_key hy] at hfind
  exact (Option.some.inj hfind).symm

namespace FieldTable

variable {t : FieldTable α}

theorem selectable?_eq_some {name : String} {f : Field α} :
    t.selectable? name = some f ↔
      f ∈ t.entries ∧ f.canSelect = true ∧ Text.lower name = f.key := by
  rw [selectable?, Option.filter_eq_some_iff, get?]
  constructor
  · rintro ⟨hf, hselect⟩
    obtain ⟨hmem, hkey⟩ := Registry.mem_of_find? hf
    exact ⟨hmem, hselect, hkey.symm⟩
  · rintro ⟨hmem, hselect, hkey⟩
    rw [hkey]
    exact ⟨t.find?_key hmem, hselect⟩

/-- No two fields of a table have one name. -/
theorem eq_of_name {f g : Field α} (hf : f ∈ t.entries) (hg : g ∈ t.entries)
    (h : f.name = g.name) : f = g :=
  Registry.eq_of_key hf hg (congrArg Text.lower h)

/-- The object holds the values of the fields that are shown, and nothing else. -/
structure Holds (t : FieldTable α) (entity : α) (shows : Field α → Prop) (ms : Json.Members) :
    Prop where
  nodup : (ms.map Prod.fst).Nodup
  field : ∀ f ∈ t.entries, shows f → ms.get? f.name = some (f.read entity).toJson
  only : ∀ key ∈ ms.map Prod.fst, ∃ f ∈ t.entries, shows f ∧ f.name = key

theorem holds_ofList {shows : Field α → Prop} {fs : List (Field α)}
    (h : ∀ f, f ∈ fs ↔ f ∈ t.entries ∧ shows f) (entity : α) :
    t.Holds entity shows (.ofList (fs.map fun f => (f.name, (f.read entity).toJson))) where
  nodup := Json.Members.nodup_ofList _
  field f hf hshows := by
    refine Json.Members.get?_ofList_eq_some ?_ fun m hm hname => ?_
    · rw [List.map_map]
      exact List.mem_map_of_mem (f := fun g => g.name) ((h f).2 ⟨hf, hshows⟩)
    · obtain ⟨g, hg, rfl⟩ := List.mem_map.1 hm
      rw [eq_of_name ((h g).1 hg).1 hf hname]
  only key hkey := by
    rw [Json.Members.mem_keys_ofList, List.map_map] at hkey
    obtain ⟨f, hf, rfl⟩ := List.mem_map.1 hkey
    exact ⟨f, ((h f).1 hf).1, ((h f).1 hf).2, rfl⟩

end FieldTable

/-- The field may be selected, and the text shows its name. -/
def ShowsField (text : Option String) (f : Field α) : Prop :=
  f.canSelect = true ∧ ShowsName text f.key

theorem mem_shownFields {m : FieldMap α} {text : Option String} {f : Field α} :
    f ∈ shownFields m (parse text) ↔ f ∈ m.fields.entries ∧ ShowsField text f := by
  rw [ShowsField, showsName_iff]
  cases parse text with
  | none => simp [shownFields]
  | some p =>
    rw [shownFields, List.mem_filterMap]
    constructor
    · rintro ⟨e, he, hf⟩
      obtain ⟨hp, hwhole⟩ := List.mem_filter.1 he
      obtain ⟨hmem, hselect, hkey⟩ := FieldTable.selectable?_eq_some.1 hf
      exact ⟨hmem, hselect, e, hp, hwhole, hkey⟩
    · rintro ⟨hmem, hselect, e, hp, hwhole, hkey⟩
      exact ⟨e, List.mem_filter.2 ⟨hp, hwhole⟩,
        FieldTable.selectable?_eq_some.2 ⟨hmem, hselect, hkey⟩⟩

/-! ## Related entities -/

/-- The field of a related entity may be selected, and the text does not narrow the relation or
mentions the field as a part of it. -/
def ShowsPart (text : Option String) (name : String) (f : Field α) : Prop :=
  f.canSelect = true ∧ (NamedOpen (Mentions text) name ∨
    ∃ c, NamedPart (Mentions text) name c ∧ Text.lower c = f.key)

theorem Projection.Narrows.lower_iff {text : Option String} {name key : String}
    {names : List String} (h : Narrows text name names) :
    (names = [] ∨ ∃ n ∈ names, Text.lower n = key) ↔
      (NamedOpen (Mentions text) name ∨
        ∃ c, NamedPart (Mentions text) name c ∧ Text.lower c = key) := by
  by_cases hopen : NamedOpen (Mentions text) name
  · exact iff_of_true (.inl (h.all hopen)) (.inl hopen)
  · have hpart : ∃ c, NamedPart (Mentions text) name c :=
      not_forall_not.1 (not_or.1 (not_or.1 hopen).2).2
    constructor
    · rintro (rfl | ⟨n, hn, hkey⟩)
      · obtain ⟨c, hc⟩ := hpart
        obtain ⟨c', hc', -⟩ := h.covers hopen c hc
        cases hc'
      · exact .inr ⟨n, h.part hopen n hn, hkey⟩
    · rintro (hall | ⟨c, hc, hkey⟩)
      · exact absurd hall hopen
      · obtain ⟨c', hc', heq⟩ := h.covers hopen c hc
        exact .inr ⟨c', hc', (Text.lower_eq_of_eqIgnoreAsciiCase heq).trans hkey⟩

/-- An entity is shown by the names that narrow it as the text says. -/
theorem FieldTable.holds_select {t : FieldTable α} {text : Option String} {name : String}
    {names : List String} (h : Narrows text name names) (entity : α) :
    ∃ ms, t.select entity names = .object ms ∧ t.Holds entity (ShowsPart text name) ms := by
  refine ⟨_, rfl, FieldTable.holds_ofList (fun f => ?_) entity⟩
  rw [ShowsPart, ← h.lower_iff]
  split
  · rename_i hnil
    rw [List.mem_filter]
    simp [hnil]
  · rename_i hne
    rw [List.mem_filterMap, or_iff_right hne]
    simp only [FieldTable.selectable?_eq_some]
    constructor
    · rintro ⟨n, hn, hmem, hselect, hkey⟩
      exact ⟨hmem, hselect, n, hn, hkey⟩
    · rintro ⟨hmem, hselect, n, hn, hkey⟩
      exact ⟨n, hn, hmem, hselect, hkey⟩

/-! ## Relations -/

/-- The names that narrow a relation, if it is shown. -/
def selection? (p : Option Projection) (includes : IncludeSet) (name : String) :
    Option (List String) :=
  match p.bind (·.entryFor? name) with
  | some e => some e.selection
  | none => if includes.contains name then some [] else none

theorem mem_shownRelations {m : FieldMap α} {p : Option Projection} {includes : IncludeSet}
    {r : Relation α} {names : List String} :
    (r, names) ∈ shownRelations m p includes ↔
      r ∈ m.relations.entries ∧ selection? p includes r.name = some names := by
  have hshown : ∀ {r' : Relation α} {names' : List String},
      (match p.bind (·.entryFor? r'.name) with
        | some e => some (r', e.selection)
        | none => if includes.contains r'.name then some (r', []) else none) = some (r, names') ↔
        r' = r ∧ selection? p includes r'.name = some names' := by
    intro r' names'
    unfold selection?
    cases p.bind (·.entryFor? r'.name) with
    | some e => simp
    | none =>
      dsimp only
      split <;> simp
  rw [shownRelations, List.mem_filterMap]
  constructor
  · rintro ⟨r', hr', h⟩
    obtain ⟨rfl, hnames⟩ := hshown.1 h
    exact ⟨hr', hnames⟩
  · rintro ⟨hr, hnames⟩
    exact ⟨r, hr, hshown.2 ⟨rfl, hnames⟩⟩

theorem selection?_eq_none {text : Option String} {includes : IncludeSet} {name : String}
    (h : selection? (parse text) includes name = none) :
    ¬ (includes.contains name = true ∨ Named (Mentions text) name) := by
  have hsums := entrySumsUp_parse text name
  unfold selection? at h
  split at h
  · cases h
  · rename_i hentry
    rw [hentry] at hsums
    split at h
    · cases h
    · exact not_or.2 ⟨‹_›, hsums⟩

theorem narrows_of_selection? {text : Option String} {includes : IncludeSet} {name : String}
    {names : List String} (h : selection? (parse text) includes name = some names) :
    (includes.contains name = true ∨ Named (Mentions text) name) ∧ Narrows text name names := by
  have hsums := entrySumsUp_parse text name
  unfold selection? at h
  split at h
  · rename_i e hentry
    rw [hentry] at hsums
    obtain rfl := Option.some.inj h
    exact ⟨.inr hsums.1, hsums.2.narrows⟩
  · rename_i hentry
    rw [hentry] at hsums
    split at h
    · obtain rfl := Option.some.inj h
      exact ⟨.inl ‹_›, narrows_of_not_named hsums⟩
    · cases h

/-- No two relations of a map have one name. -/
theorem FieldMap.eq_of_relation_name {m : FieldMap α} {r r' : Relation α}
    (hr : r ∈ m.relations.entries) (hr' : r' ∈ m.relations.entries) (h : r.name = r'.name) :
    r = r' :=
  Registry.eq_of_key hr hr' (congrArg Text.lower h)

/-! ## Entities -/

/-- The object of an entity holds the relations that are shown, each narrowed as the text says, the
fields that are shown where no relation takes their name, and nothing else. -/
structure ShowsExactly (m : FieldMap α) (text : Option String) (includes : IncludeSet) (entity : α)
    (ms : Json.Members) : Prop where
  nodup : (ms.map Prod.fst).Nodup
  relation : ∀ r ∈ m.relations.entries, ShowsRelation text includes r →
    ∃ names, Narrows text r.name names ∧ ms.get? r.name = some (r.project entity names)
  field : ∀ f ∈ m.fields.entries, ShowsField text f →
    (∀ r ∈ m.relations.entries, ShowsRelation text includes r → r.name ≠ f.name) →
      ms.get? f.name = some (f.read entity).toJson
  only : ∀ key ∈ ms.map Prod.fst,
    (∃ r ∈ m.relations.entries, ShowsRelation text includes r ∧ r.name = key) ∨
      ∃ f ∈ m.fields.entries, ShowsField text f ∧ f.name = key

section Members

variable {m : FieldMap α} {text : Option String} {includes : IncludeSet}

/-- The members of the relations that are shown. -/
def relationMembers (m : FieldMap α) (text : Option String) (includes : IncludeSet) (entity : α) :
    List (String × Json) :=
  (shownRelations m (parse text) includes).map fun r => (r.1.name, r.1.project entity r.2)

theorem mem_keys_relationMembers {entity : α} {key : String} :
    key ∈ (relationMembers m text includes entity).map Prod.fst ↔
      ∃ r ∈ m.relations.entries, ShowsRelation text includes r ∧ r.name = key := by
  rw [relationMembers, List.map_map, List.mem_map]
  constructor
  · rintro ⟨⟨r, names⟩, hmem, rfl⟩
    obtain ⟨hr, hnames⟩ := mem_shownRelations.1 hmem
    exact ⟨r, hr, (narrows_of_selection? hnames).1, rfl⟩
  · rintro ⟨r, hr, hshows, rfl⟩
    cases hnames : selection? (parse text) includes r.name with
    | none => exact absurd hshows (selection?_eq_none hnames)
    | some names => exact ⟨(r, names), mem_shownRelations.2 ⟨hr, hnames⟩, rfl⟩

theorem get?_relationMembers (entity : α) {r : Relation α} (hr : r ∈ m.relations.entries)
    (hshows : ShowsRelation text includes r) :
    ∃ names, Narrows text r.name names ∧
      (Json.Members.ofList (relationMembers m text includes entity)).get? r.name =
        some (r.project entity names) := by
  cases hnames : selection? (parse text) includes r.name with
  | none => exact absurd hshows (selection?_eq_none hnames)
  | some names =>
    refine ⟨names, (narrows_of_selection? hnames).2, Json.Members.get?_ofList_eq_some ?_ ?_⟩
    · exact mem_keys_relationMembers.2 ⟨r, hr, hshows, rfl⟩
    · intro member hmember hname
      obtain ⟨⟨r', names'⟩, hmem, rfl⟩ := List.mem_map.1 hmember
      obtain ⟨hr', hnames'⟩ := mem_shownRelations.1 hmem
      obtain rfl := FieldMap.eq_of_relation_name hr' hr hname
      rw [hnames] at hnames'
      rw [Option.some.inj hnames']

end Members

theorem showsExactly_project (m : FieldMap α) (text : Option String) (includes : IncludeSet)
    (entity : α) :
    ShowsExactly m text includes entity (project m (parse text) includes entity) := by
  have hfields := FieldTable.holds_ofList
    (fun f => (mem_shownFields : f ∈ shownFields m (parse text) ↔ _)) entity
  have hget := Json.Members.get?_ofList_append
    ((shownFields m (parse text)).map fun f => (f.name, (f.read entity).toJson))
    (relationMembers m text includes entity)
  refine ⟨Json.Members.nodup_ofList _, fun r hr hshows => ?_, fun f hf hshows hnone => ?_,
    fun key hkey => ?_⟩
  · obtain ⟨names, hnarrows, hvalue⟩ := get?_relationMembers entity hr hshows
    refine ⟨names, hnarrows, ?_⟩
    rw [project, ← relationMembers, hget, hvalue, Option.some_or]
  · have hno :
        (Json.Members.ofList (relationMembers m text includes entity)).get? f.name = none := by
      rw [Json.Members.get?_ofList_eq_none, mem_keys_relationMembers]
      rintro ⟨r, hr, hr', hname⟩
      exact hnone r hr hr' hname
    rw [project, ← relationMembers, hget, hno, Option.none_or]
    exact hfields.field f hf hshows
  · rw [project, ← relationMembers, Json.Members.mem_keys_ofList, List.map_append,
      List.mem_append] at hkey
    rcases hkey with hkey | hkey
    · exact .inr (hfields.only key (Json.Members.mem_keys_ofList.2 hkey))
    · exact .inl (mem_keys_relationMembers.1 hkey)

/-- An entity shows exactly the fields and relations that the text and the included relations ask
for and that its map allows, and so does a related entity that is shown by a table of fields. -/
theorem project_exactly (m : FieldMap α) (text : Option String) (includes : IncludeSet)
    (entity : α) :
    ShowsExactly m text includes entity (project m (parse text) includes entity) ∧
      ∀ (β : Type) (t : FieldTable β) (related : β) (name : String) (names : List String),
        Narrows text name names → ∃ ms, t.select related names = .object ms ∧
          t.Holds related (ShowsPart text name) ms :=
  ⟨showsExactly_project m text includes entity,
    fun _ _ related _ _ h => FieldTable.holds_select h related⟩

end EntityQuery
