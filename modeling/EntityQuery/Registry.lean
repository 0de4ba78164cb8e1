/-!
# Registries

A registry is a list of entries with distinct keys. Inserting an entry whose key is present puts it
in the place of the one that had the key; any other goes to the end. So the entries stand in the
order in which their keys were first registered (`keys_insert`), and a key finds the entry that was
registered last under it (`find?_insert`). A list of entries is registered with an index beside it
that says where the entry of each key stands (`Indexed`).
-/

namespace EntityQuery

/-- Puts an entry in the place of the one with the same key, or at the end. -/
def register {α : Type} (key : α → String) (x : α) : List α → List α
  | [] => [x]
  | y :: ys => if key y = key x then x :: ys else y :: register key x ys

theorem map_register {α : Type} (key : α → String) (x : α) (ys : List α) :
    (register key x ys).map key =
      if key x ∈ ys.map key then ys.map key else ys.map key ++ [key x] := by
  induction ys with
  | nil => simp [register]
  | cons y ys ih =>
    by_cases h : key y = key x
    · simp [register, h]
    · have h' : ¬ key x = key y := fun e => h e.symm
      by_cases hm : key x ∈ ys.map key
      · rw [if_pos hm] at ih
        simp only [register, if_neg h, List.map_cons, ih, List.mem_cons, hm, or_true, if_true]
      · rw [if_neg hm] at ih
        simp only [register, if_neg h, List.map_cons, ih, List.mem_cons, hm, h', or_self,
          if_false, List.cons_append]

theorem nodup_map_register {α : Type} (key : α → String) (x : α) {ys : List α}
    (h : (ys.map key).Nodup) : ((register key x ys).map key).Nodup := by
  rw [map_register]
  split
  · exact h
  · rename_i hm
    rw [List.nodup_append]
    refine ⟨h, by simp, ?_⟩
    intro a ha b hb hab
    rw [List.mem_singleton] at hb
    exact hm (hb ▸ hab ▸ ha)

theorem find?_register {α : Type} (key : α → String) (x : α) (ys : List α) (k : String) :
    (register key x ys).find? (key · = k) =
      if key x = k then some x else ys.find? (key · = k) := by
  induction ys with
  | nil => simp [register, List.find?_cons]; split <;> simp_all
  | cons y ys ih =>
    by_cases h : key y = key x
    · by_cases hk : key x = k
      · simp [register, h, hk]
      · simp [register, h, hk]
    · simp only [register, if_neg h, List.find?_cons, ih]
      by_cases hy : key y = k
      · have : key x ≠ k := fun e => h (hy.trans e.symm)
        simp [hy, this]
      · simp [hy]

theorem register_of_not_mem {α : Type} {key : α → String} {x : α} {ys : List α}
    (h : ∀ y ∈ ys, key y ≠ key x) : register key x ys = ys ++ [x] := by
  induction ys with
  | nil => rfl
  | cons y ys ih =>
    rw [register, if_neg (h y (.head _)), ih fun z hz => h z (.tail _ hz), List.cons_append]

theorem register_of_first {α : Type} {key : α → String} {x y : α} {ys : List α} {i : Nat}
    (hi : ys[i]? = some y) (hy : key y = key x)
    (hfirst : ∀ j < i, ∀ z, ys[j]? = some z → key z ≠ key x) :
    register key x ys = ys.set i x := by
  induction ys generalizing i with
  | nil => cases hi
  | cons w ws ih =>
    cases i with
    | zero =>
      cases hi
      rw [register, if_pos hy, List.set_cons_zero]
    | succ i =>
      have hw : key w ≠ key x := hfirst 0 (Nat.succ_pos i) w rfl
      rw [register, if_neg hw, List.set_cons_succ]
      exact congrArg _ (ih hi fun j hj => hfirst (j + 1) (Nat.succ_lt_succ hj))

structure Registry (α : Type) (key : α → String) where
  entries : List α
  nodup : (entries.map key).Nodup

namespace Registry

variable {α : Type} {key : α → String}

def empty : Registry α key := ⟨[], by simp⟩

def insert (r : Registry α key) (x : α) : Registry α key :=
  ⟨register key x r.entries, nodup_map_register key x r.nodup⟩

end Registry

/-! ## Registering a list -/

/-- Entries under registration, and an index that says where the entry of a key stands. -/
structure Indexed (α : Type) where
  entries : List α
  places : List (String × Nat)

namespace Indexed

variable {α : Type}

def empty : Indexed α := ⟨[], []⟩

def place? (t : Indexed α) (k : String) : Option Nat := t.places.lookup k

def find? (t : Indexed α) (k : String) : Option α := (t.place? k).bind (t.entries[·]?)

/-- Replaces the entry at the place of its key; a new key goes to the end and into the index. -/
def insert (key : α → String) (t : Indexed α) (x : α) : Indexed α :=
  match t.place? (key x) with
  | some i => { t with entries := t.entries.set i x }
  | none => ⟨t.entries ++ [x], (key x, t.entries.length) :: t.places⟩

def ofList (key : α → String) (xs : List α) : Indexed α := xs.foldl (insert key) empty

/-- Each key of the index stands for the place of the entry that has it, and no entry is missing. -/
def Exact (key : α → String) (t : Indexed α) : Prop :=
  ∀ k i, t.place? k = some i ↔ ∃ x, t.entries[i]? = some x ∧ key x = k

variable {key : α → String} {t : Indexed α}

theorem exact_empty : (empty : Indexed α).Exact key := by
  intro k i
  constructor
  · intro h
    cases h
  · rintro ⟨x, hx, -⟩
    cases hx

theorem Exact.not_mem (h : t.Exact key) {k : String} (hk : t.place? k = none) :
    ∀ y ∈ t.entries, key y ≠ k := by
  intro y hy hkey
  obtain ⟨i, hi⟩ := List.mem_iff_getElem?.1 hy
  rw [(h k i).2 ⟨y, hi, hkey⟩] at hk
  cases hk

/-- Going by the index is going through the entries. -/
theorem Exact.entries_insert (h : t.Exact key) (x : α) :
    (t.insert key x).entries = register key x t.entries := by
  unfold insert
  split
  · rename_i i hi
    obtain ⟨y, hy, hkey⟩ := (h _ i).1 hi
    refine (register_of_first hy hkey fun j hj z hz hkey' => ?_).symm
    rw [(h _ j).2 ⟨z, hz, hkey'⟩] at hi
    cases hi
    exact Nat.lt_irrefl _ hj
  · rename_i hnone
    exact (register_of_not_mem (h.not_mem hnone)).symm

theorem Exact.replaced (h : t.Exact key) {x : α} {i : Nat} (hi : t.place? (key x) = some i) :
    Exact key { t with entries := t.entries.set i x } := by
  obtain ⟨y, hy, hkey⟩ := (h _ i).1 hi
  have hlt : i < t.entries.length := (List.getElem?_eq_some_iff.1 hy).1
  intro k j
  show t.place? k = some j ↔ ∃ z, (t.entries.set i x)[j]? = some z ∧ key z = k
  rw [h k j]
  by_cases hij : i = j
  · subst hij
    rw [List.getElem?_set_self hlt, hy]
    exact ⟨fun ⟨_, hz, hk⟩ => ⟨x, rfl, by cases hz; rw [← hkey, hk]⟩,
      fun ⟨_, hz, hk⟩ => ⟨y, rfl, by cases hz; rw [hkey, hk]⟩⟩
  · rw [List.getElem?_set_ne hij]

theorem place?_added (t : Indexed α) (x : α) (k : String) :
    place? ⟨t.entries ++ [x], (key x, t.entries.length) :: t.places⟩ k =
      if key x = k then some t.entries.length else t.place? k := by
  by_cases hk : key x = k
  · rw [if_pos hk, ← hk]
    exact List.lookup_cons_self
  · have hne : (k == key x) = false := by
      rw [beq_eq_false_iff_ne]
      exact fun e => hk e.symm
    rw [if_neg hk, place?, List.lookup_cons, hne]
    rfl

theorem Exact.added (h : t.Exact key) {x : α} (hnone : t.place? (key x) = none) :
    Exact key ⟨t.entries ++ [x], (key x, t.entries.length) :: t.places⟩ := by
  intro k j
  rw [place?_added]
  show _ ↔ ∃ z, (t.entries ++ [x])[j]? = some z ∧ key z = k
  by_cases hk : key x = k
  · subst hk
    rw [if_pos rfl]
    constructor
    · intro hj
      cases hj
      exact ⟨x, List.getElem?_concat_length, rfl⟩
    · rintro ⟨z, hz, hkey⟩
      rcases Nat.lt_or_ge j t.entries.length with hj | hj
      · rw [List.getElem?_append_left hj] at hz
        exact absurd hkey (h.not_mem hnone z (List.mem_of_getElem? hz))
      · have hlt : j < (t.entries ++ [x]).length := (List.getElem?_eq_some_iff.1 hz).1
        rw [List.length_append, List.length_singleton] at hlt
        rw [Nat.le_antisymm hj (Nat.le_of_lt_succ hlt)]
  · rw [if_neg hk, h k j]
    constructor
    · rintro ⟨z, hz, hkey⟩
      have hj : j < t.entries.length := (List.getElem?_eq_some_iff.1 hz).1
      exact ⟨z, by rw [List.getElem?_append_left hj, hz], hkey⟩
    · rintro ⟨z, hz, hkey⟩
      rcases Nat.lt_or_ge j t.entries.length with hj | hj
      · rw [List.getElem?_append_left hj] at hz
        exact ⟨z, hz, hkey⟩
      · rw [List.getElem?_append_right hj] at hz
        have hx : z = x := List.mem_singleton.1 (List.mem_of_getElem? hz)
        exact absurd (hx ▸ hkey) hk

theorem Exact.insert (h : t.Exact key) (x : α) : (t.insert key x).Exact key := by
  unfold Indexed.insert
  split
  · rename_i i hi
    exact h.replaced hi
  · rename_i hnone
    exact h.added hnone

/-- What the index leads to is what a search through the entries finds. -/
theorem Exact.find?_eq (h : t.Exact key) (k : String) :
    t.find? k = t.entries.find? (key · = k) := by
  cases hplace : t.place? k with
  | none =>
    rw [find?, hplace]
    refine (List.find?_eq_none.2 fun y hy => ?_).symm
    simpa using h.not_mem hplace y hy
  | some i =>
    obtain ⟨x, hx, hkey⟩ := (h k i).1 hplace
    rw [find?, hplace]
    show t.entries[i]? = _
    cases hfind : t.entries.find? (key · = k) with
    | none =>
      have hmem : x ∈ t.entries := List.mem_of_getElem? hx
      exact absurd hkey (by simpa using List.find?_eq_none.1 hfind x hmem)
    | some y =>
      obtain ⟨j, hj⟩ := List.mem_iff_getElem?.1 (List.mem_of_find?_eq_some hfind)
      have hkey' : key y = k := by simpa using List.find?_some hfind
      have hij : t.place? k = some j := (h k j).2 ⟨y, hj, hkey'⟩
      rw [hplace] at hij
      cases hij
      exact hj

/-- Registering by the index, entry after entry, is registering. -/
theorem ofList_of_exact (xs : List α) (h : t.Exact key) (r : Registry α key)
    (hr : t.entries = r.entries) :
    (xs.foldl (insert key) t).Exact key ∧
      (xs.foldl (insert key) t).entries = (xs.foldl Registry.insert r).entries := by
  induction xs generalizing t r with
  | nil => exact ⟨h, hr⟩
  | cons x xs ih =>
    refine ih (h.insert x) (r.insert x) ?_
    rw [h.entries_insert, hr]
    rfl

end Indexed

namespace Registry

variable {α : Type} {key : α → String}

def ofList (xs : List α) : Registry α key :=
  ⟨(Indexed.ofList key xs).entries, by
    rw [Indexed.ofList, (Indexed.ofList_of_exact xs Indexed.exact_empty empty rfl).2]
    exact (xs.foldl insert empty).nodup⟩

theorem eq_of_entries {r s : Registry α key} (h : r.entries = s.entries) : r = s := by
  cases r
  cases s
  cases h
  rfl

theorem ofList_eq (xs : List α) : (ofList xs : Registry α key) = xs.foldl insert empty :=
  eq_of_entries (Indexed.ofList_of_exact xs Indexed.exact_empty empty rfl).2

def keys (r : Registry α key) : List String := r.entries.map key

def find? (r : Registry α key) (k : String) : Option α := r.entries.find? (key · = k)

/-! ## Entries and their keys -/

theorem keys_insert (r : Registry α key) (x : α) :
    (r.insert x).keys = if key x ∈ r.keys then r.keys else r.keys ++ [key x] :=
  map_register key x r.entries

theorem find?_insert (r : Registry α key) (x : α) (k : String) :
    (r.insert x).find? k = if key x = k then some x else r.find? k :=
  find?_register key x r.entries k

theorem find?_key (r : Registry α key) {x : α} (h : x ∈ r.entries) :
    r.find? (key x) = some x := by
  have hn := r.nodup
  unfold find?
  generalize r.entries = ys at h hn
  induction ys with
  | nil => simp at h
  | cons y ys ih =>
    rw [List.find?_cons]
    rw [List.map_cons, List.nodup_cons] at hn
    rcases List.mem_cons.1 h with rfl | h
    · simp
    · have : key y ≠ key x := fun e => hn.1 (e ▸ List.mem_map_of_mem h)
      simp [this, ih h hn.2]

theorem mem_of_find? {r : Registry α key} {k : String} {x : α} (h : r.find? k = some x) :
    x ∈ r.entries ∧ key x = k :=
  ⟨List.mem_of_find?_eq_some h, by simpa using List.find?_some h⟩

end Registry

end EntityQuery
