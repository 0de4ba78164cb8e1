import EntityQuery.Proofs.Document.Lookup

/-!
# Dotted paths in stored documents

A document stores a field as one member that is called by the whole path of the field, and a lookup
takes a path apart at its dots. So a field whose path has no dot is read as it was stored, whatever
the other paths are, and one whose path has a dot is not: the lookup goes into the member that is
called by the path up to the dot (`valueAt_toDocument_eq`). What is found there is nothing, unless
that member is the wrapper of an instant or of a GUID and the rest of the path is its key.
-/

namespace EntityQuery

variable {α : Type}

/-! ## Paths taken apart -/

namespace Text

theorem splitOnChar_ne_nil (sep : Char) (cs : List Char) : splitOnChar sep cs ≠ [] := by
  cases cs with
  | nil => exact List.cons_ne_nil _ _
  | cons c cs =>
    unfold splitOnChar
    split
    · exact List.cons_ne_nil _ _
    · split <;> exact List.cons_ne_nil _ _

theorem splitOnChar_append {sep : Char} {a : List Char} (h : sep ∉ a) (b : List Char) :
    splitOnChar sep (a ++ sep :: b) = a :: splitOnChar sep b := by
  induction a with
  | nil => exact if_pos rfl
  | cons c a ih =>
    simp only [List.mem_cons, not_or] at h
    have hne : ¬ c = sep := fun e => h.1 e.symm
    simp only [List.cons_append, splitOnChar, if_neg hne, ih h.2]

end Text

namespace Document

/-- The path up to its first dot. -/
def stem (path : String) : String := String.ofList (path.toList.takeWhile (· ≠ '.'))

/-- The path behind its first dot. -/
def branch (path : String) : String := String.ofList ((path.toList.dropWhile (· ≠ '.')).drop 1)

theorem segments_ne_nil (path : String) : segments path ≠ [] := by
  rw [segments, ne_eq, List.map_eq_nil_iff]
  exact Text.splitOnChar_ne_nil '.' _

theorem stem_branch_of_split {path : String} {a b : List Char} (ha : '.' ∉ a)
    (h : path.toList = a ++ '.' :: b) :
    stem path = String.ofList a ∧ branch path = String.ofList b := by
  have hplain : ∀ c ∈ a, decide (c ≠ '.') = true := fun c hc =>
    decide_eq_true fun e => ha (e ▸ hc)
  constructor
  · rw [stem, h, List.takeWhile_append_of_pos hplain, List.takeWhile_cons_of_neg (by decide),
      List.append_nil]
  · rw [branch, h, List.dropWhile_append_of_pos hplain, List.dropWhile_cons_of_neg (by decide),
      List.drop_one, List.tail_cons]

theorem segments_of_dotted {path : String} (h : '.' ∈ path.toList) :
    segments path = stem path :: segments (branch path) := by
  obtain ⟨a, b, hsplit, ha⟩ := List.eq_append_cons_of_mem h
  obtain ⟨hstem, hbranch⟩ := stem_branch_of_split ha hsplit
  rw [hstem, hbranch, segments, hsplit, Text.splitOnChar_append ha, List.map_cons, segments,
    String.toList_ofList]

/-- A lookup along a dotted path goes into the member that the first part of the path calls. -/
theorem lookup_of_dotted {path : String} (h : '.' ∈ path.toList) (doc : Json) :
    lookup doc path = ((doc.get? (stem path)).map (lookup · (branch path))).getD .null := by
  rw [lookup, segments_of_dotted h, descend]
  cases doc.get? (stem path) with
  | none => rfl
  | some next => rw [Option.map_some, Option.getD_some, lookup]

/-- What has no members has nothing inside. -/
theorem lookup_of_get?_eq_none {j : Json} (h : ∀ key, j.get? key = none) (path : String) :
    lookup j path = .null := by
  unfold lookup
  cases hs : segments path with
  | nil => exact absurd hs (segments_ne_nil path)
  | cons s rest => rw [descend, h s]

/-- Inside the wrapper of a text there is the text, and nothing else. -/
theorem lookup_wrapper (key s path : String) (hkey : '.' ∉ key.toList) :
    lookup (.object [(key, .string s)]) path = if path = key then .string s else .null := by
  by_cases hdot : '.' ∈ path.toList
  · have hne : path ≠ key := fun e => hkey (e ▸ hdot)
    rw [if_neg hne, lookup_of_dotted hdot]
    by_cases hstem : key = stem path
    · simp only [Json.get?, Json.Members.get?_cons, if_pos hstem, Option.map_some, Option.getD_some]
      exact lookup_of_get?_eq_none (fun _ => rfl) _
    · simp only [Json.get?, Json.Members.get?_cons, if_neg hstem]
      rfl
  · rw [lookup_of_dotless hdot]
    by_cases hpath : path = key
    · simp only [Json.get?, Json.Members.get?_cons, if_pos hpath, if_pos hpath.symm]
      rfl
    · have hpath' : ¬ key = path := fun e => hpath e.symm
      simp only [Json.get?, Json.Members.get?_cons, if_neg hpath, if_neg hpath']
      rfl

end Document

/-! ## Inside the stored form of a value -/

/-- What the stored form of a value has inside: the bare text of an instant or of a GUID, under the
key of its wrapper. -/
def Value.inner (v : Value) (key : String) : Value :=
  match v with
  | dateTime i => if key = "$date" then string i.text else null
  | guid g => if key = "$uuid" then string g.text else null
  | _ => null

@[simp] theorem Value.inner_null (key : String) : null.inner key = null := rfl

namespace Document

theorem get?_numberToJson (x : Number) (key : String) :
    (Value.numberToJson x).get? key = none := by
  unfold Value.numberToJson
  split
  · rfl
  · split <;> rfl

theorem valueAt_stored (v : Value) (path : String) : valueAt v.toDocument path = v.inner path := by
  cases v with
  | null => rw [valueAt, lookup_of_get?_eq_none fun _ => rfl]; rfl
  | string s => rw [valueAt, lookup_of_get?_eq_none fun _ => rfl]; rfl
  | number x =>
    have hnone := lookup_of_get?_eq_none (get?_numberToJson x) path
    exact congrArg Value.ofDocument hnone
  | boolean b => rw [valueAt, lookup_of_get?_eq_none fun _ => rfl]; rfl
  | dateTime i =>
    rw [valueAt, Value.toDocument, lookup_wrapper _ _ _ (by decide), Value.inner]
    split <;> rfl
  | guid g =>
    rw [valueAt, Value.toDocument, lookup_wrapper _ _ _ (by decide), Value.inner]
    split <;> rfl

end Document

/-! ## Fields read at their paths -/

/-- The value of the field that is stored under a name, and nothing if there is none. -/
def FieldMap.readAt (m : FieldMap α) (entity : α) (name : String) : Value :=
  ((m.fields.entries.find? (·.path = name)).map (·.read entity)).getD .null

namespace Document

theorem valueAt_toDocument_dotted {m : FieldMap α}
    (hm : (m.fields.entries.map Field.path).Nodup) {path : String} (h : '.' ∈ path.toList)
    (entity : α) :
    valueAt (m.toDocument entity) path =
      (m.readAt entity (stem path)).inner (branch path) := by
  rw [valueAt, lookup_of_dotted h, get?_toDocument hm, FieldMap.readAt]
  cases m.fields.entries.find? (·.path = stem path) with
  | none => rfl
  | some g =>
    simp only [Option.map_some, Option.getD_some]
    exact valueAt_stored (g.read entity) (branch path)

/-- What a stored document holds at the path of a field: the stored form of the field's value, if
the path has no dot. A lookup along a path with dots ends inside the value that is stored under
the first part of the path, whatever the field itself holds. -/
theorem valueAt_toDocument_eq {m : FieldMap α} (hm : (m.fields.entries.map Field.path).Nodup)
    (entity : α) {f : Field α} (hf : f ∈ m.fields.entries) :
    valueAt (m.toDocument entity) f.path =
      if '.' ∈ f.path.toList then (m.readAt entity (stem f.path)).inner (branch f.path)
      else .ofDocument (f.read entity).toDocument := by
  split
  · rename_i hdot
    exact valueAt_toDocument_dotted hm hdot entity
  · rename_i hdot
    rw [valueAt, lookup_toDocument_of_dotless hm hf hdot]

end Document

/-! ## A map with dotted paths -/

/-- The day of an installation and a reading, as an entity. -/
abbrev Sensor := Value × Value

def installedAt : Field Sensor :=
  ⟨"installedAt", "installed_at", "installedAt", .dateTime, fun s => s.1, true, true, true⟩

/-- Its path is that of the day with the key of the wrapper of instants behind it. -/
def installedText : Field Sensor :=
  ⟨"installedText", "installed_text", "installedAt.$date", .string, fun _ => .null, true, true,
    true⟩

def reading : Field Sensor :=
  ⟨"reading", "reading", "telemetry.reading", .number, fun s => s.2, true, true, true⟩

def sensorMap : FieldMap Sensor :=
  ⟨"Sensor", ⟨[installedAt, installedText, reading], by decide⟩, .empty, none⟩

/-- A day in November, and zero. -/
def sensor : Sensor :=
  (.dateTime ⟨⟨2023, 11, 7, by decide⟩, .midnight⟩, .number (.finite false 0))

theorem nodup_sensorMap : (sensorMap.fields.entries.map Field.path).Nodup := by decide

namespace Document

theorem readAt_stem_reading : sensorMap.readAt sensor (stem reading.path) = .null := by
  have hstem : stem reading.path = "telemetry" := by decide
  rw [hstem]
  simp [FieldMap.readAt, sensorMap, installedAt, installedText, reading]

theorem readAt_stem_installedText :
    sensorMap.readAt sensor (stem installedText.path) = sensor.1 := by
  have hstem : stem installedText.path = "installedAt" := by decide
  rw [hstem]
  simp [FieldMap.readAt, sensorMap, installedAt]

theorem valueAt_toDocument_eq_sensor :
    valueAt (sensorMap.toDocument sensor) installedAt.path = .ofDocument sensor.1.toDocument ∧
      valueAt (sensorMap.toDocument sensor) installedText.path =
        .string "2023-11-07T00:00:00Z" ∧
      valueAt (sensorMap.toDocument sensor) reading.path = .null := by
  have hday := valueAt_toDocument_eq nodup_sensorMap sensor (f := installedAt) (by simp [sensorMap])
  have htext :=
    valueAt_toDocument_eq nodup_sensorMap sensor (f := installedText) (by simp [sensorMap])
  have hreading := valueAt_toDocument_eq nodup_sensorMap sensor (f := reading) (by simp [sensorMap])
  have hbranch : branch installedText.path = "$date" := by decide
  rw [if_neg (by decide)] at hday
  rw [if_pos (by decide), readAt_stem_installedText, hbranch] at htext
  rw [if_pos (by decide), readAt_stem_reading, Value.inner_null] at hreading
  exact ⟨hday, htext.trans (by decide), hreading⟩

/-- A stored number that no filter and no sort finds. -/
theorem reading_lost :
    (sensorMap.fields.entries.map Field.path).Nodup ∧ reading ∈ sensorMap.fields.entries ∧
      valueAt (sensorMap.toDocument sensor) reading.path = .null ∧
      Value.ofDocument (reading.read sensor).toDocument = .number (.finite false 0) := by
  refine ⟨nodup_sensorMap, by simp [sensorMap], ?_, Value.ofDocument_toDocument rfl⟩
  rw [valueAt_toDocument_dotted nodup_sensorMap (by decide), readAt_stem_reading,
    Value.inner_null]

end Document

end EntityQuery
