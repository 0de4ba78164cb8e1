import EntityQuery.Proofs.Document.Paths
import EntityQuery.Proofs.Query.Projection
import EntityQuery.Proofs.Query.Sorting

/-!
# The keys of a sort text

Each part of a sort text that names a field open to sorting, with a sign in front or without, stands
for a key (`SortKey.NamedBy`). A plan keeps the first key of each field and drops the later ones
(`SortPlan.KeepsFirst`), and no two entities can tell: where a later key comes to decide, the first
one of its field has found a tie, and so does the later one in either direction
(`compareBy_withoutRepeats`). So parts that name nothing new may stand anywhere in a text
(`parse_insert`).
-/

namespace EntityQuery

variable {α : Type}

/-! ## Parts between commas -/

theorem Text.splitOnChar_append_cons (sep : Char) (a b : List Char) :
    splitOnChar sep (a ++ sep :: b) = splitOnChar sep a ++ splitOnChar sep b := by
  induction a with
  | nil => simp [splitOnChar]
  | cons c a ih =>
    rw [List.cons_append, splitOnChar, splitOnChar, ih]
    by_cases hc : c = sep
    · rw [if_pos hc, if_pos hc, List.cons_append]
    · rw [if_neg hc, if_neg hc]
      obtain ⟨p, ps, hps⟩ := List.exists_cons_of_ne_nil (splitOnChar_ne_nil sep a)
      rw [hps]
      rfl

/-- The parts of two texts with a comma between them. -/
theorem Text.commaParts_append (a b : String) :
    commaParts (a ++ "," ++ b) = commaParts a ++ commaParts b := by
  have hchars : (a ++ "," ++ b).toList = a.toList ++ ',' :: b.toList := by
    rw [String.toList_append, String.toList_append, List.append_assoc]
    rfl
  rw [commaParts, hchars, splitOnChar_append_cons, List.map_append, List.filter_append]
  rfl

/-! ## What a part stands for -/

/-- A part of a sort text with the name and the direction it gives: a sign in front says the
direction, and there are none but ascending ones without it. -/
inductive KeyText : List Char → List Char → SortDirection → Prop where
  | minus (name : List Char) : KeyText ('-' :: name) (Text.trimChars name) .desc
  | plus (name : List Char) : KeyText ('+' :: name) (Text.trimChars name) .asc
  | bare {name : List Char} : (∀ c ∈ name.head?, c ≠ '-' ∧ c ≠ '+') → KeyText name name .asc

/-- The part names the field of the key, which is open to sorting, and gives its direction. -/
structure SortKey.NamedBy (m : FieldMap α) (part : String) (k : SortKey α) : Prop where
  known : k.field ∈ m.fields.entries
  canSort : k.field.canSort = true
  named : ∃ name, KeyText part.toList name k.direction ∧
    Text.lower (String.ofList name) = k.field.key

namespace SortPlan

variable {m : FieldMap α}

/-- The keys that parts of a text stand for, in their order. A part that names no field open to
sorting stands for none. -/
inductive Names (m : FieldMap α) : List String → List (SortKey α) → Prop where
  | nil : Names m [] []
  | key {part : String} {parts : List String} {k : SortKey α} {ks : List (SortKey α)} :
      k.NamedBy m part → Names m parts ks → Names m (part :: parts) (k :: ks)
  | skip {part : String} {parts : List String} {ks : List (SortKey α)} :
      (∀ k : SortKey α, ¬ k.NamedBy m part) → Names m parts ks → Names m (part :: parts) ks

theorem keyText_readKey (part : String) :
    KeyText part.toList (readKey part).1.toList (readKey part).2 := by
  unfold readKey
  split
  · rename_i cs hpart
    rw [hpart, String.toList_ofList]
    exact .minus cs
  · rename_i cs hpart
    rw [hpart, String.toList_ofList]
    exact .plus cs
  · rename_i hminus hplus
    refine .bare fun c hc => ?_
    obtain ⟨cs, hpart⟩ := List.head?_eq_some_iff.1 hc
    exact ⟨fun heq => hminus cs (heq ▸ hpart), fun heq => hplus cs (heq ▸ hpart)⟩

theorem keyText_unique {part name name' : List Char} {d d' : SortDirection}
    (h : KeyText part name d) (h' : KeyText part name' d') : name = name' ∧ d = d' := by
  cases h with
  | minus name =>
    cases h' with
    | minus => exact ⟨rfl, rfl⟩
    | bare hbare => exact absurd rfl (hbare '-' rfl).1
  | plus name =>
    cases h' with
    | plus => exact ⟨rfl, rfl⟩
    | bare hbare => exact absurd rfl (hbare '+' rfl).2
  | bare hbare =>
    cases h' with
    | minus => exact absurd rfl (hbare '-' rfl).1
    | plus => exact absurd rfl (hbare '+' rfl).2
    | bare => exact ⟨rfl, rfl⟩

theorem key?_eq (part : String) :
    key? m part = ((m.get? (readKey part).1).filter (·.canSort)).map
      fun f => ⟨f, (readKey part).2⟩ := rfl

theorem key?_eq_some {part : String} {k : SortKey α} :
    key? m part = some k ↔ k.NamedBy m part := by
  have hread := keyText_readKey part
  rw [key?_eq, Option.map_eq_some_iff]
  constructor
  · rintro ⟨f, hf, rfl⟩
    obtain ⟨hget, hsort⟩ := Option.filter_eq_some_iff.1 hf
    obtain ⟨hmem, hkey⟩ := Registry.mem_of_find? hget
    refine ⟨hmem, hsort, _, hread, ?_⟩
    rw [String.ofList_toList, hkey]
  · rintro ⟨hmem, hsort, name, hname, hkey⟩
    obtain ⟨rfl, hdirection⟩ := keyText_unique hname hread
    rw [String.ofList_toList] at hkey
    have hget : m.get? (readKey part).1 = some k.field := by
      rw [FieldMap.get?, FieldTable.get?, hkey]
      exact m.fields.find?_key hmem
    refine ⟨k.field, ?_, ?_⟩
    · rw [hget, Option.filter_some_pos hsort]
    · rw [← hdirection]

theorem key?_eq_none {part : String} :
    key? m part = none ↔ ∀ k : SortKey α, ¬ k.NamedBy m part := by
  simp only [Option.eq_none_iff_forall_ne_some, ne_eq, key?_eq_some]

/-- Going through the parts finds the keys that they stand for, and there are no others. -/
theorem names_iff {parts : List String} {ks : List (SortKey α)} :
    Names m parts ks ↔ parts.filterMap (key? m) = ks := by
  constructor
  · intro h
    induction h with
    | nil => rfl
    | key hk _ ih => rw [List.filterMap_cons_some (key?_eq_some.2 hk), ih]
    | skip hnone _ ih => rw [List.filterMap_cons_none (key?_eq_none.2 hnone), ih]
  · rintro rfl
    induction parts with
    | nil => exact .nil
    | cons part parts ih =>
      cases h : key? m part with
      | none =>
        rw [List.filterMap_cons_none h]
        exact .skip (key?_eq_none.1 h) ih
      | some k =>
        rw [List.filterMap_cons_some h]
        exact .key (key?_eq_some.1 h) ih

theorem mem_usableKeys {raw : String} {k : SortKey α} :
    k ∈ usableKeys m raw ↔ ∃ part ∈ Text.commaParts raw, k.NamedBy m part := by
  simp only [usableKeys, List.mem_filterMap, key?_eq_some]

/-! ## The first key of each field -/

/-- Of all keys the first one of each field is kept, and the fields stand as they came first. -/
structure KeepsFirst (kept all : List (SortKey α)) : Prop where
  fields : kept.map (·.field.key) = (all.map (·.field.key)).eraseDups
  first : ∀ k ∈ kept, all.find? (·.field.key = k.field.key) = some k

theorem map_withoutRepeats (seen : List String) (ks : List (SortKey α)) :
    (withoutRepeats seen ks).map (·.field.key) =
      ((ks.map (·.field.key)).filter (· ∉ seen)).eraseDups := by
  induction ks generalizing seen with
  | nil => rfl
  | cons k ks ih =>
    unfold withoutRepeats
    by_cases hk : k.field.key ∈ seen
    · rw [if_pos hk, ih, List.map_cons, List.filter_cons_of_neg (by simpa using hk)]
    · rw [if_neg hk, List.map_cons, ih, List.map_cons, List.filter_cons_of_pos (by simpa using hk),
        List.eraseDups_cons, List.filter_filter]
      congr 3
      funext key
      by_cases hkey : key = k.field.key <;> simp [hkey]

theorem find?_of_mem_withoutRepeats {seen : List String} {ks : List (SortKey α)} {k : SortKey α}
    (h : k ∈ withoutRepeats seen ks) :
    k.field.key ∉ seen ∧ ks.find? (·.field.key = k.field.key) = some k := by
  induction ks generalizing seen with
  | nil => cases h
  | cons k' ks ih =>
    unfold withoutRepeats at h
    split at h
    · rename_i hseen
      obtain ⟨hk, hfind⟩ := ih h
      have hne : ¬ k'.field.key = k.field.key := fun heq => hk (heq ▸ hseen)
      exact ⟨hk, by rw [List.find?_cons_of_neg (by simpa using hne), hfind]⟩
    · rename_i hseen
      rcases List.mem_cons.1 h with rfl | h
      · exact ⟨hseen, List.find?_cons_of_pos (by simp)⟩
      · obtain ⟨hk, hfind⟩ := ih h
        obtain ⟨hne, hk⟩ := not_or.1 (mt List.mem_cons.2 hk)
        exact ⟨hk, by rw [List.find?_cons_of_neg (by simpa using fun heq => hne heq.symm), hfind]⟩

theorem keepsFirst_withoutRepeats (ks : List (SortKey α)) :
    KeepsFirst (withoutRepeats [] ks) ks where
  fields := by
    rw [map_withoutRepeats, List.filter_eq_self.2 fun _ _ => by simp]
  first _ hk := (find?_of_mem_withoutRepeats hk).2

theorem withoutRepeats_eq_nil {ks : List (SortKey α)} : withoutRepeats [] ks = [] ↔ ks = [] := by
  cases ks with
  | nil => exact Iff.rfl
  | cons k ks =>
    rw [withoutRepeats, if_neg List.not_mem_nil]
    exact iff_of_false (List.cons_ne_nil _ _) (List.cons_ne_nil _ _)

/-! ## Later keys decide nothing -/

/-- The order by the first of the keys that tells two entities apart. -/
def firstDifference (ks : List (SortKey α)) (a b : α) : Ordering :=
  ((ks.map fun k => k.direction.apply ((k.field.read a).sortCompare (k.field.read b))).find?
    (· ≠ .eq)).getD .eq

theorem compareBy_eq_firstDifference (ks : List (SortKey α)) (a b : α) :
    compareBy Field.read a b ks = firstDifference ks a b := by
  induction ks with
  | nil => rfl
  | cons k ks ih =>
    rw [compareBy, ih, firstDifference, firstDifference, List.map_cons, List.find?_cons]
    cases k.direction.apply ((k.field.read a).sortCompare (k.field.read b)) <;> rfl

/-- Keys of one field are keys of the same field. -/
def SameFields (ks : List (SortKey α)) : Prop :=
  ∀ k ∈ ks, ∀ k' ∈ ks, k.field.key = k'.field.key → k.field = k'.field

theorem sameFields_usableKeys (raw : String) : SameFields (usableKeys m raw) :=
  fun _ hk _ hk' => Registry.eq_of_key (mem_of_mem_usableKeys hk) (mem_of_mem_usableKeys hk')

/-- A key whose field has come before is asked only where that field has found a tie. -/
theorem compareBy_withoutRepeats {β : Type} (read : Field α → β → Value) {a b : β}
    {seen : List String} {ks : List (SortKey α)} (hfields : SameFields ks)
    (hties : ∀ k ∈ ks, k.field.key ∈ seen → (read k.field a).sortCompare (read k.field b) = .eq) :
    compareBy read a b (withoutRepeats seen ks) = compareBy read a b ks := by
  induction ks generalizing seen with
  | nil => rfl
  | cons k ks ih =>
    have hrest : SameFields ks := fun k₁ h₁ k₂ h₂ =>
      hfields k₁ (List.mem_cons_of_mem _ h₁) k₂ (List.mem_cons_of_mem _ h₂)
    have htail : ∀ k' ∈ ks, k'.field.key ∈ seen →
        (read k'.field a).sortCompare (read k'.field b) = .eq :=
      fun k' hk' => hties k' (List.mem_cons_of_mem _ hk')
    unfold withoutRepeats
    by_cases hseen : k.field.key ∈ seen
    · have htie := hties k List.mem_cons_self hseen
      rw [if_pos hseen, ih hrest htail, compareBy, htie]
      cases k.direction <;> rfl
    rw [if_neg hseen, compareBy, compareBy]
    by_cases htie : (read k.field a).sortCompare (read k.field b) = .eq
    · rw [ih hrest fun k' hk' hmem => ?_]
      rcases List.mem_cons.1 hmem with heq | hmem
      · rw [hfields k' (List.mem_cons_of_mem _ hk') k List.mem_cons_self heq, htie]
      · exact htail k' hk' hmem
    · have hdecided : k.direction.apply ((read k.field a).sortCompare (read k.field b)) ≠ .eq := by
        revert htie
        cases (read k.field a).sortCompare (read k.field b) <;> cases k.direction <;> decide
      revert hdecided
      cases k.direction.apply ((read k.field a).sortCompare (read k.field b)) with
      | eq => exact fun h => absurd rfl h
      | lt | gt => exact fun _ => rfl

/-! ## Parts that name nothing new -/

theorem withoutRepeats_append_of_mem {seen : List String} {ks : List (SortKey α)}
    (h : ∀ k ∈ ks, k.field.key ∈ seen) (rest : List (SortKey α)) :
    withoutRepeats seen (ks ++ rest) = withoutRepeats seen rest := by
  induction ks with
  | nil => rfl
  | cons k ks ih =>
    obtain ⟨hk, hks⟩ := List.forall_mem_cons.1 h
    rw [List.cons_append, withoutRepeats, if_pos hk, ih hks]

theorem withoutRepeats_insert {seen : List String} {front piece : List (SortKey α)}
    (h : ∀ k ∈ piece, k.field.key ∈ seen ∨ ∃ k' ∈ front, k'.field.key = k.field.key)
    (back : List (SortKey α)) :
    withoutRepeats seen (front ++ (piece ++ back)) = withoutRepeats seen (front ++ back) := by
  induction front generalizing seen with
  | nil =>
    refine withoutRepeats_append_of_mem (fun k hk => (h k hk).resolve_right ?_) back
    rintro ⟨k', hk', -⟩
    cases hk'
  | cons k' front ih =>
    have hfront : ∀ k ∈ piece, k.field.key ∈ k'.field.key :: seen ∨
        ∃ k' ∈ front, k'.field.key = k.field.key := by
      intro k hk
      rcases h k hk with hseen | ⟨k'', hk'', heq⟩
      · exact .inl (List.mem_cons_of_mem _ hseen)
      · rcases List.mem_cons.1 hk'' with rfl | hk''
        · exact .inl (heq ▸ List.mem_cons_self)
        · exact .inr ⟨k'', hk'', heq⟩
    rw [List.cons_append, List.cons_append, withoutRepeats, withoutRepeats]
    by_cases hseen : k'.field.key ∈ seen
    · have hmem : ∀ key, key ∈ k'.field.key :: seen → key ∈ seen := fun key hkey =>
        (List.mem_cons.1 hkey).elim (fun heq => heq ▸ hseen) id
      rw [if_pos hseen, if_pos hseen, ih fun k hk => (hfront k hk).imp_left (hmem _)]
    · rw [if_neg hseen, if_neg hseen, ih hfront]

theorem parse_congr {raw raw' : String}
    (h : withoutRepeats [] (usableKeys m raw) = withoutRepeats [] (usableKeys m raw')) :
    parse m (some raw) = parse m (some raw') := by
  unfold parse
  rw [Option.getD_some, Option.getD_some, h]

/-- Parts of which each names no key, or a key of a field named before, change no plan. -/
theorem parse_insert {front piece : String}
    (h : ∀ k ∈ usableKeys m piece, ∃ k' ∈ usableKeys m front, k'.field = k.field)
    (back : String) :
    parse m (some (front ++ "," ++ piece ++ "," ++ back)) =
      parse m (some (front ++ "," ++ back)) := by
  refine parse_congr ?_
  simp only [usableKeys, Text.commaParts_append, List.filterMap_append, List.append_assoc]
  refine withoutRepeats_insert (fun k hk => .inr ?_) _
  obtain ⟨k', hk', heq⟩ := h k hk
  exact ⟨k', hk', congrArg Field.key heq⟩

/-! ## The plan of a text -/

/-- The field and the direction that the map falls back on. -/
def IsDefault (m : FieldMap α) (f : Field α) (d : SortDirection) : Prop :=
  f ∈ m.fields.entries ∧ ∃ name, m.defaultSortName = some (name, d) ∧ Text.lower name = f.key

theorem defaultSort?_eq_some {f : Field α} {d : SortDirection} :
    m.defaultSort? = some (f, d) ↔ IsDefault m f d := by
  unfold FieldMap.defaultSort? IsDefault
  constructor
  · intro h
    split at h
    · cases h
    · rename_i name direction hname
      obtain ⟨g, hg, hpair⟩ := Option.map_eq_some_iff.1 h
      obtain ⟨rfl, rfl⟩ := Prod.mk.inj hpair
      obtain ⟨hmem, hkey⟩ := Registry.mem_of_find? hg
      exact ⟨hmem, name, hname, hkey.symm⟩
  · rintro ⟨hmem, name, hname, hkey⟩
    have hget : m.get? name = some f := by
      rw [FieldMap.get?, FieldTable.get?, hkey]
      exact m.fields.find?_key hmem
    rw [hname]
    show (m.get? name).map _ = _
    rw [hget, Option.map_some]

theorem parse_of_ne_nil {raw : Option String} (h : usableKeys m (raw.getD "") ≠ []) :
    parse m raw = ⟨withoutRepeats [] (usableKeys m (raw.getD "")), false⟩ := by
  unfold parse
  split
  · rename_i hnil
    exact absurd (withoutRepeats_eq_nil.1 hnil) h
  · rfl

theorem parse_of_nil {raw : Option String} (h : usableKeys m (raw.getD "") = []) :
    parse m raw =
      match m.defaultSort? with
      | some (f, d) => ⟨[⟨f, d⟩], true⟩
      | none => ⟨[], false⟩ := by
  unfold parse
  rw [h]
  rfl

/-- The parts of a text stand for certain keys. If there are any, the plan has the first one of
each field, and it orders as all of them do one after the other. If there are none, the plan has
the default of the map, as far as the map has one. Parts that stand for no key, or for one of a
field named before, change no plan. -/
theorem keeps_usable_keys (m : FieldMap α) (text : Option String) :
    (∃ all, Names m (Text.commaParts (text.getD "")) all) ∧
      (∀ all, Names m (Text.commaParts (text.getD "")) all →
        (all ≠ [] → KeepsFirst (parse m text).keys all ∧ (parse m text).defaulted = false ∧
          ∀ a b, (parse m text).compare a b = firstDifference all a b) ∧
        (all = [] → (∀ f d, IsDefault m f d → parse m text = ⟨[⟨f, d⟩], true⟩) ∧
          ((∀ f d, ¬ IsDefault m f d) → parse m text = ⟨[], false⟩))) ∧
      ∀ front piece back : String,
        (∀ part ∈ Text.commaParts piece, ∀ k : SortKey α, k.NamedBy m part →
          ∃ part' ∈ Text.commaParts front, ∃ k' : SortKey α,
            k'.NamedBy m part' ∧ k'.field = k.field) →
        parse m (some (front ++ "," ++ piece ++ "," ++ back)) =
          parse m (some (front ++ "," ++ back)) := by
  refine ⟨⟨_, names_iff.2 rfl⟩, fun all hall => ?_, fun front piece back h => ?_⟩
  · obtain rfl : usableKeys m (text.getD "") = all := names_iff.1 hall
    refine ⟨fun hne => ?_, fun hnil => ?_⟩
    · rw [parse_of_ne_nil hne]
      refine ⟨keepsFirst_withoutRepeats _, rfl, fun a b => ?_⟩
      have hcompare := compareBy_withoutRepeats Field.read (a := a) (b := b)
        (sameFields_usableKeys (m := m) (text.getD "")) (fun _ _ hseen => absurd hseen List.not_mem_nil)
      rw [compare, hcompare, compareBy_eq_firstDifference]
    · rw [parse_of_nil hnil]
      refine ⟨fun f d hdefault => ?_, fun hnone => ?_⟩
      · rw [defaultSort?_eq_some.2 hdefault]
      · have hdefault : m.defaultSort? = none :=
          Option.eq_none_iff_forall_ne_some.2 fun p hp => hnone p.1 p.2 (defaultSort?_eq_some.1 hp)
        rw [hdefault]
  · refine parse_insert (fun k hk => ?_) back
    obtain ⟨part, hpart, hnamed⟩ := mem_usableKeys.1 hk
    obtain ⟨part', hpart', k', hnamed', heq⟩ := h part hpart k hnamed
    exact ⟨k', mem_usableKeys.2 ⟨part', hpart', hnamed'⟩, heq⟩

/-- Behind the size come a name that no field has, and the size once more the other way. -/
def sizesText : String := "-NETSIZE, owner, +netSize,name"

theorem keeps_usable_keys_sizesText :
    (usableKeys partMap sizesText).map (fun k => (k.field.name, k.direction)) =
        [("netSize", .desc), ("netSize", .asc), ("name", .asc)] ∧
      KeepsFirst (parse partMap (some sizesText)).keys (usableKeys partMap sizesText) ∧
      parse partMap (some sizesText) = parse partMap (some "-NETSIZE,name") := by
  have hkeys : (usableKeys partMap sizesText).map (fun k => (k.field.name, k.direction)) =
      [("netSize", .desc), ("netSize", .asc), ("name", .asc)] := by decide
  obtain ⟨-, hplan, hinsert⟩ := keeps_usable_keys partMap (some sizesText)
  have hne : usableKeys partMap sizesText ≠ [] := by
    intro hnil
    rw [hnil] at hkeys
    cases hkeys
  refine ⟨hkeys, ((hplan _ (names_iff.2 rfl)).1 hne).1,
    hinsert "-NETSIZE" " owner, +netSize" "name" fun part hpart k hk => ?_⟩
  have hsize : key? partMap "-NETSIZE" = some ⟨partFields[1], .desc⟩ := rfl
  have hparts : Text.commaParts " owner, +netSize" = ["owner", "+netSize"] := by decide
  rw [hparts, List.mem_cons, List.mem_singleton] at hpart
  refine ⟨"-NETSIZE", by decide, _, key?_eq_some.1 hsize, ?_⟩
  rcases hpart with rfl | rfl
  · have hnone : key? partMap "owner" = none := rfl
    exact absurd hk (key?_eq_none.1 hnone k)
  · have hagain : key? partMap "+netSize" = some ⟨partFields[1], .asc⟩ := rfl
    have hfield : k.field = partFields[1] :=
      congrArg SortKey.field (Option.some.inj ((key?_eq_some.2 hk).symm.trans hagain))
    exact hfield.symm

end SortPlan

end EntityQuery
