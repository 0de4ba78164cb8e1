import EntityQuery.Proofs.Document.Lookup
import EntityQuery.Proofs.Filter.Typing
import EntityQuery.Query.Sort

/-!
# Sorting entities and sorting their documents

The keys of a plan are fields of the map (`mem_of_mem_keys_parse`), so that a plan orders two
documents as it orders the entities they were made of (`compareDocuments_toDocument`).
-/

namespace EntityQuery

/-! ## The keys of a plan -/

namespace SortPlan

variable {α : Type} {m : FieldMap α}

theorem mem_of_mem_withoutRepeats {seen : List String} {ks : List (SortKey α)} {k : SortKey α}
    (h : k ∈ withoutRepeats seen ks) : k ∈ ks := by
  induction ks generalizing seen with
  | nil => exact h
  | cons k' ks ih =>
    unfold withoutRepeats at h
    split at h
    · exact List.mem_cons_of_mem _ (ih h)
    · rcases List.mem_cons.1 h with rfl | h
      · exact List.mem_cons_self
      · exact List.mem_cons_of_mem _ (ih h)

theorem mem_of_mem_usableKeys {raw : String} {k : SortKey α} (h : k ∈ usableKeys m raw) :
    k.field ∈ m.fields.entries := by
  obtain ⟨part, _, hpart⟩ := List.mem_filterMap.1 h
  obtain ⟨f, hf, rfl⟩ := Option.map_eq_some_iff.1 hpart
  exact FieldMap.mem_of_get? (Option.filter_eq_some_iff.1 hf).1

theorem mem_of_mem_keys_parse {raw : Option String} {k : SortKey α}
    (h : k ∈ (parse m raw).keys) : k.field ∈ m.fields.entries := by
  unfold parse at h
  split at h
  · split at h
    · rename_i f direction hdefault
      obtain rfl := List.mem_singleton.1 h
      unfold FieldMap.defaultSort? at hdefault
      split at hdefault
      · nomatch hdefault
      · obtain ⟨g, hg, hfg⟩ := Option.map_eq_some_iff.1 hdefault
        obtain ⟨rfl, _⟩ := Prod.mk.inj hfg
        exact FieldMap.mem_of_get? hg
    · exact absurd h List.not_mem_nil
  · exact mem_of_mem_usableKeys (mem_of_mem_withoutRepeats h)

/-! ## The order of documents -/

theorem compareBy_congr {β γ : Type} {read : Field α → β → Value} {read' : Field α → γ → Value}
    {a b : β} {a' b' : γ} {ks : List (SortKey α)}
    (h : ∀ k ∈ ks, (read k.field a).sortCompare (read k.field b) =
      (read' k.field a').sortCompare (read' k.field b')) :
    compareBy read a b ks = compareBy read' a' b' ks := by
  induction ks with
  | nil => rfl
  | cons k ks ih =>
    rw [compareBy, compareBy, h k List.mem_cons_self,
      ih fun k' hk' => h k' (List.mem_cons_of_mem _ hk')]

/-- A plan orders documents as it orders their entities. -/
theorem compareDocuments_toDocument (hm : m.PlainPaths) {p : SortPlan α}
    (hp : ∀ k ∈ p.keys, k.field ∈ m.fields.entries) {a b : α} (ha : m.Stores a)
    (hb : m.Stores b) :
    p.compareDocuments (m.toDocument a) (m.toDocument b) = p.compare a b := by
  refine compareBy_congr fun k hk => ?_
  have hf := hp k hk
  rw [Document.valueAt_toDocument hm hf (ha k.field hf),
    Document.valueAt_toDocument hm hf (hb k.field hf), Value.sortCompare_dropZeroSign]

end SortPlan

end EntityQuery
