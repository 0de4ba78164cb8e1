import EntityQuery.Proofs.Filter.Typing
import EntityQuery.Proofs.Query.Order
import EntityQuery.Proofs.Query.Sorters
import EntityQuery.Proofs.Query.Sorting

/-!
# Plans order by a total preorder

Values of one type stand in order by their characters and their numbers
(`Value.sortCompare_eq_rankCompare`), and nothing stands before them all. So a plan whose keys read
values of one type each is a total preorder, lexicographic in its keys (`transCmp_compareBy`,
`SortPlan.Uniform.totalPreorderOn`), by which every sorter sorts.
-/

namespace EntityQuery

/-! ## Values of one type -/

namespace Value

/-- Nothing, or a value that has a place in the order of a type, as a NaN has not. -/
def Sortable (t : FieldType) (v : Value) : Prop :=
  v = .null ∨ v.type? = some t ∧ v ≠ .number .nan

instance (t : FieldType) (v : Value) : Decidable (v.Sortable t) :=
  inferInstanceAs (Decidable (_ ∨ _ ∧ _))

/-- The characters by which texts are ordered. -/
def rankChars : Value → List Char
  | string s => s.toList
  | _ => []

/-- The numbers by which all other values are ordered. Nothing has none. -/
def rankNumbers : Value → List Int
  | null | number .nan => []
  | string _ => [0]
  | number (.finite s u) => [0, Number.signedUnits s u]
  | number (.infinite s) => [if s then -1 else 1]
  | boolean b => [b.toNat]
  | dateTime i => [i.date.year, i.date.month, i.date.day, i.time.second, i.time.nanos]
  | guid g => [g.bits.toNat]

def rankCompare : Value → Value → Ordering :=
  compareLex (compareOn rankChars) (compareOn rankNumbers)

instance : Std.TransCmp rankCompare := inferInstanceAs (Std.TransCmp (compareLex _ _))

theorem rankCompare_eq (v w : Value) :
    v.rankCompare w = (Ord.compare v.rankChars w.rankChars).then
      (Ord.compare v.rankNumbers w.rankNumbers) := rfl

theorem compare_natCast (m n : Nat) : Ord.compare (m : Int) (n : Int) = Ord.compare m n := by
  rcases Nat.lt_trichotomy m n with h | rfl | h
  · rw [Nat.compare_eq_lt.2 h, Int.compare_eq_lt.2 (Int.ofNat_lt.2 h)]
  · rw [Std.ReflOrd.compare_self, Std.ReflOrd.compare_self]
  · rw [Nat.compare_eq_gt.2 h, Int.compare_eq_gt.2 (Int.ofNat_lt.2 h)]

/-- Only nothing has neither characters nor numbers. -/
theorem rankCompare_null {t : FieldType} {v : Value} (h : v.type? = some t)
    (hnan : v ≠ .number .nan) : null.rankCompare v = .lt := by
  have hnumbers : ∃ n ns, v.rankNumbers = n :: ns := by
    cases v with
    | null => cases h
    | number x =>
      cases x with
      | nan => exact absurd rfl hnan
      | finite | infinite => exact ⟨_, _, rfl⟩
    | _ => exact ⟨_, _, rfl⟩
  obtain ⟨n, ns, hnumbers⟩ := hnumbers
  rw [rankCompare_eq, hnumbers]
  cases v.rankChars <;> rfl

theorem compare_eq_rankCompare {t : FieldType} {v w : Value} (hv : v.type? = some t)
    (hw : w.type? = some t) (hvnan : v ≠ .number .nan) (hwnan : w ≠ .number .nan) :
    v.compare w = some (v.rankCompare w) := by
  have htype : v.type? = w.type? := hv.trans hw.symm
  rw [rankCompare_eq]
  cases v with
  | null => cases hv
  | string a =>
    cases w with
    | string b =>
      show some (Ord.compare a.toList b.toList) = some ((Ord.compare a.toList b.toList).then .eq)
      rw [Ordering.then_eq]
    | _ => cases htype
  | number x =>
    cases w with
    | number y =>
      cases x with
      | nan => exact absurd rfl hvnan
      | finite s u =>
        cases y with
        | nan => exact absurd rfl hwnan
        | finite s' u' =>
          simp [compare, Number.compare, rankChars, rankNumbers, List.compare_cons_cons]
        | infinite s' => cases s' <;> rfl
      | infinite s =>
        cases y with
        | nan => exact absurd rfl hwnan
        | finite s' u' => cases s <;> rfl
        | infinite s' => cases s <;> cases s' <;> rfl
    | _ => cases htype
  | boolean a =>
    cases w with
    | boolean b => cases a <;> cases b <;> rfl
    | _ => cases htype
  | dateTime i =>
    cases w with
    | dateTime j =>
      simp [compare, Instant.compare, Date.compare, Time.compare, rankChars, rankNumbers,
        List.compare_cons_cons, compare_natCast, Ordering.then_assoc]
    | _ => cases htype
  | guid g =>
    cases w with
    | guid h => simp [compare, Guid.compare, rankChars, rankNumbers, compare_natCast]
    | _ => cases htype

/-- Values of one type, and nothing before them, are sorted by characters and numbers. -/
theorem sortCompare_eq_rankCompare {t : FieldType} {v w : Value} (hv : v.Sortable t)
    (hw : w.Sortable t) : v.sortCompare w = v.rankCompare w := by
  rcases hv with rfl | ⟨hv, hvnan⟩
  · rcases hw with rfl | ⟨hw, hwnan⟩
    · rfl
    · rw [rankCompare_null hw hwnan]
      cases w with
      | null => cases hw
      | _ => rfl
  · rcases hw with rfl | ⟨hw, hwnan⟩
    · have hswap : v.rankCompare null = (null.rankCompare v).swap := Std.OrientedCmp.eq_swap
      rw [hswap, rankCompare_null hv hvnan]
      cases v with
      | null => cases hv
      | _ => rfl
    · have hcompare := compare_eq_rankCompare hv hw hvnan hwnan
      have hsort : v.sortCompare w = (v.compare w).getD .eq := by
        cases v with
        | null => cases hv
        | _ =>
          cases w with
          | null => cases hw
          | _ => rfl
      rw [hsort, hcompare, Option.getD_some]

theorem sortCompare_isNull {v w : Value} (hv : v.isNull = false) (hw : w.isNull = true) :
    v.sortCompare w = .gt := by
  cases w with
  | null =>
    cases v with
    | null => cases hv
    | _ => rfl
  | _ => cases hw

/-- What reads values of one type, or nothing, orders by them. -/
theorem transCmp_sortCompare {β : Type} {read : β → Value} {t : FieldType}
    (h : ∀ b, (read b).Sortable t) :
    Std.TransCmp fun a b => (read a).sortCompare (read b) := by
  have heq : (fun a b => (read a).sortCompare (read b)) =
      fun a b => (read a).rankCompare (read b) :=
    funext fun a => funext fun b => sortCompare_eq_rankCompare (h a) (h b)
  have hrank : Std.TransCmp rankCompare := inferInstance
  rw [heq]
  exact { eq_swap := hrank.eq_swap, isLE_trans := hrank.isLE_trans }

end Value

/-! ## Plans -/

namespace SortPlan

variable {α β : Type} {read : Field α → β → Value}

theorem transCmp_direction {cmp : β → β → Ordering} (h : Std.TransCmp cmp) (d : SortDirection) :
    Std.TransCmp fun a b => d.apply (cmp a b) := by
  cases d with
  | asc => exact h
  | desc =>
    have heq : (fun a b => SortDirection.desc.apply (cmp a b)) = fun a b => cmp b a :=
      funext fun a => funext fun b => Std.OrientedCmp.eq_swap.symm
    rw [heq]
    exact Std.TransCmp.opposite

/-- Keys that read values of one type each order by a total preorder. -/
theorem transCmp_compareBy {ks : List (SortKey α)}
    (h : ∀ k ∈ ks, ∃ t, ∀ b, (read k.field b).Sortable t) :
    Std.TransCmp fun a b => compareBy read a b ks := by
  induction ks with
  | nil => exact { eq_swap := rfl, isLE_trans := fun _ _ => rfl }
  | cons k ks ih =>
    obtain ⟨t, ht⟩ := h k List.mem_cons_self
    have hkey := transCmp_direction (Value.transCmp_sortCompare ht) k.direction
    have hrest := ih fun k' hk' => h k' (List.mem_cons_of_mem _ hk')
    exact inferInstanceAs (Std.TransCmp (compareLex
      (fun a b => k.direction.apply ((read k.field a).sortCompare (read k.field b)))
      (fun a b => compareBy read a b ks)))

end SortPlan

/-! ## Sorting by a plan -/

/-- All entries without a value at the key stand in front of the others, or all of them behind. -/
def SortKey.PlacesNulls {α : Type} (k : SortKey α) (sorted : List α) : Prop :=
  ∃ nulls others, (∀ a ∈ nulls, (k.field.read a).isNull = true) ∧
    (∀ a ∈ others, (k.field.read a).isNull = false) ∧
    sorted = match k.direction with
      | .asc => nulls ++ others
      | .desc => others ++ nulls

/-- What stands in front of all others with it is a front part. -/
theorem exists_eq_append_of_pairwise {β : Type} {p : β → Bool} {xs : List β}
    (h : xs.Pairwise fun a b => p b = true → p a = true) :
    ∃ front back, (∀ a ∈ front, p a = true) ∧ (∀ a ∈ back, p a = false) ∧ xs = front ++ back := by
  induction xs with
  | nil => exact ⟨[], [], nofun, nofun, rfl⟩
  | cons x xs ih =>
    obtain ⟨hx, hxs⟩ := List.pairwise_cons.1 h
    by_cases hpx : p x = true
    · obtain ⟨front, back, hfront, hback, rfl⟩ := ih hxs
      exact ⟨x :: front, back, List.forall_mem_cons.2 ⟨hpx, hfront⟩, hback, rfl⟩
    · have hpx : p x = false := Bool.eq_false_iff.2 hpx
      refine ⟨[], x :: xs, nofun, List.forall_mem_cons.2 ⟨hpx, fun a ha => ?_⟩, rfl⟩
      exact Bool.eq_false_iff.2 fun hpa => Bool.eq_false_iff.1 hpx (hx a ha hpa)

namespace SortPlan

variable {α : Type} {p : SortPlan α} {items : List α}

/-- Each key reads values of one type from the entities, or nothing. -/
def Uniform (p : SortPlan α) (items : List α) : Prop :=
  ∀ k ∈ p.keys, ∃ t, ∀ a ∈ items, (k.field.read a).Sortable t

/-- The order of the entities of a list. -/
def compareIn (p : SortPlan α) (items : List α) (a b : {a // a ∈ items}) : Ordering :=
  p.compare a b

theorem Uniform.transCmp (h : p.Uniform items) : Std.TransCmp (p.compareIn items) := by
  have hread : ∀ k ∈ p.keys, ∃ t, ∀ a : {a // a ∈ items}, (k.field.read a.1).Sortable t :=
    fun k hk => (h k hk).imp fun t ht a => ht a.1 a.2
  have heq : p.compareIn items = fun a b => compareBy (fun f a => f.read a.1) a b p.keys :=
    funext fun a => funext fun b => compareBy_congr fun _ _ => rfl
  rw [heq]
  exact transCmp_compareBy hread

theorem Uniform.totalPreorderOn (h : p.Uniform items) : TotalPreorderOn p.compare items where
  refl a ha := by
    have := h.transCmp
    have haa : p.compareIn items ⟨a, ha⟩ ⟨a, ha⟩ = .eq := Std.ReflCmp.compare_self
    exact haa
  swap a _ b _ := p.compare_swap a b
  trans a ha b hb c hc hab hbc := by
    have := h.transCmp
    have hab : (p.compareIn items ⟨a, ha⟩ ⟨b, hb⟩).isLE = true := Ordering.ne_gt_iff_isLE.1 hab
    have hbc : (p.compareIn items ⟨b, hb⟩ ⟨c, hc⟩).isLE = true := Ordering.ne_gt_iff_isLE.1 hbc
    have hac : (p.compareIn items ⟨a, ha⟩ ⟨c, hc⟩).isLE = true := Std.TransCmp.isLE_trans hab hbc
    exact Ordering.ne_gt_iff_isLE.2 hac

theorem Uniform.sortsStably (h : p.Uniform items) :
    SortsStably p.compare items (p.apply items) := sortsStably_stableSort h.totalPreorderOn

/-- In the order of a plan, the first key decides where nulls stand. -/
theorem placesNulls_of_pairwise {k : SortKey α} {ks : List (SortKey α)} (hp : p.keys = k :: ks)
    {sorted : List α} (h : sorted.Pairwise fun a b => p.compare a b ≠ .gt) :
    k.PlacesNulls sorted := by
  have hkey : ∀ a b, p.compare a b ≠ .gt →
      k.direction.apply ((k.field.read a).sortCompare (k.field.read b)) ≠ .gt := by
    intro a b hab hgt
    rw [compare, hp, compareBy, hgt] at hab
    exact hab rfl
  unfold SortKey.PlacesNulls
  cases hd : k.direction with
  | asc =>
    rw [hd] at hkey
    obtain ⟨nulls, others, hnulls, hothers, hsorted⟩ :=
      exists_eq_append_of_pairwise (p := fun a => (k.field.read a).isNull) <| h.imp <| by
        intro a b hab hb
        refine Classical.byContradiction fun ha => ?_
        exact hkey a b hab (Value.sortCompare_isNull (Bool.eq_false_iff.2 ha) hb)
    exact ⟨nulls, others, hnulls, hothers, hsorted⟩
  | desc =>
    rw [hd] at hkey
    obtain ⟨others, nulls, hothers, hnulls, hsorted⟩ :=
      exists_eq_append_of_pairwise (p := fun a => !(k.field.read a).isNull) <| h.imp <| by
        intro a b hab hb
        refine Classical.byContradiction fun ha => ?_
        have hgt := Value.sortCompare_isNull (v := k.field.read b) (w := k.field.read a)
          (by simpa using hb) (by simpa using ha)
        rw [← Value.sortCompare_swap] at hgt
        exact hkey a b hab hgt
    exact ⟨nulls, others, by simpa using hnulls, by simpa using hothers, hsorted⟩

end SortPlan

end EntityQuery
