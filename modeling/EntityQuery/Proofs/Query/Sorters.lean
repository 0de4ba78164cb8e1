import EntityQuery.Query.StableSort

/-!
# Sorters

By a total preorder insertion leaves the entries in order (`TotalPreorderOn.pairwise_sortOnto`) and
their ties as they were (`filter_sortOnto`), so that it is a sorter (`Sorter.insertion`). There is
only one such order (`SortsStably.unique`), and all sorters give it. Whatever the comparison is,
insertion sees its entries only by comparing them (`Sorter.isBlind_insertion`), and so goes along
with a change of the entries that keeps their order.
-/

namespace EntityQuery

variable {α : Type}

/-! ## The order that insertion leaves -/

namespace TotalPreorderOn

variable {compare : α → α → Ordering} {items : List α}

theorem subset {kept : List α} (h : TotalPreorderOn compare items) (hsub : ∀ a ∈ kept, a ∈ items) :
    TotalPreorderOn compare kept where
  refl a ha := h.refl a (hsub a ha)
  swap a ha b hb := h.swap a (hsub a ha) b (hsub b hb)
  trans a ha b hb c hc := h.trans a (hsub a ha) b (hsub b hb) c (hsub c hc)

/-- What does not come before an entry is not before it from the other side either. -/
theorem ne_gt_of_not_lt (h : TotalPreorderOn compare items) {a b : α} (ha : a ∈ items)
    (hb : b ∈ items) (hab : compare a b ≠ .lt) : compare b a ≠ .gt := by
  rw [← h.swap a ha b hb]
  intro hgt
  cases hcmp : compare a b with
  | lt => exact hab hcmp
  | eq | gt => rw [hcmp] at hgt; cases hgt

/-- What ties with an entry does not tie with what comes behind it. -/
theorem not_eq_of_lt (h : TotalPreorderOn compare items) {a x y : α} (ha : a ∈ items)
    (hx : x ∈ items) (hy : y ∈ items) (hax : compare a x = .eq) (hxy : compare x y = .lt) :
    compare a y ≠ .eq := by
  intro hay
  have hya : compare y a ≠ .gt := h.ne_gt_of_not_lt ha hy (by rw [hay]; decide)
  have hyx : compare y x ≠ .gt := h.trans y hy a ha x hx hya (by rw [hax]; decide)
  rw [← h.swap x hx y hy, hxy] at hyx
  exact hyx rfl

/-- In a list in reverse order no entry comes before the ones behind it. -/
theorem pairwise_insertReversed {x : α} {ys : List α} (h : TotalPreorderOn compare (x :: ys))
    (hys : ys.Pairwise fun y z => compare z y ≠ .gt) :
    (insertReversed (fun a b => compare a b == .lt) x ys).Pairwise
      fun y z => compare z y ≠ .gt := by
  have hx : x ∈ x :: ys := .head ys
  induction ys with
  | nil => exact List.pairwise_singleton _ x
  | cons y ys ih =>
    obtain ⟨hy, hys'⟩ := List.pairwise_cons.1 hys
    have hmem : y ∈ x :: y :: ys := .tail x (.head ys)
    unfold insertReversed
    split
    · rename_i hlt
      refine List.pairwise_cons.2 ⟨fun z hz => ?_, ih (h.subset ?_) hys' (.head ys)⟩
      · rcases List.mem_cons.1 ((insertReversed_perm _ x ys).mem_iff.1 hz) with rfl | hz
        · rw [beq_iff_eq.1 hlt]
          decide
        · exact hy z hz
      · intro a ha
        rcases List.mem_cons.1 ha with rfl | ha
        · exact hx
        · exact .tail x (.tail y ha)
    · rename_i hnlt
      refine List.pairwise_cons.2 ⟨fun z hz => ?_, hys⟩
      have hyx : compare y x ≠ .gt :=
        h.ne_gt_of_not_lt hx hmem fun hlt => hnlt (beq_iff_eq.2 hlt)
      rcases List.mem_cons.1 hz with rfl | hz'
      · exact hyx
      · exact h.trans z (.tail x hz) y hmem x hx (hy z hz') hyx

theorem pairwise_sortOnto {xs done : List α} (h : TotalPreorderOn compare (xs ++ done))
    (hdone : done.Pairwise fun y z => compare z y ≠ .gt) :
    (sortOnto (fun a b => compare a b == .lt) done xs).Pairwise
      fun y z => compare z y ≠ .gt := by
  induction xs generalizing done with
  | nil => exact hdone
  | cons x xs ih =>
    have hperm := (insertReversed_perm (fun a b => compare a b == .lt) x done).append_left xs
    refine ih (h.subset fun a ha => ?_) ((h.subset fun a ha => ?_).pairwise_insertReversed hdone)
    · exact (hperm.trans List.perm_middle).mem_iff.1 ha
    · rcases List.mem_cons.1 ha with rfl | ha
      · exact .head _
      · exact List.mem_append_right _ ha

end TotalPreorderOn

section Ties

variable {before : α → α → Bool} {p : α → Bool}

/-- What an entry moves past is not kept, unless the entry is not kept either. -/
theorem filter_insertReversed {x : α} {ys : List α}
    (h : ∀ y ∈ ys, p x = true → before x y = true → p y = false) :
    (insertReversed before x ys).filter p = (x :: ys).filter p := by
  induction ys with
  | nil => rfl
  | cons y ys ih =>
    unfold insertReversed
    split
    · rename_i hxy
      rw [List.filter_cons, ih fun z hz => h z (.tail y hz)]
      by_cases hx : p x = true
      · have hy : ¬ p y = true := by
          rw [h y (.head ys) hx hxy]
          decide
        rw [if_neg hy, List.filter_cons_of_pos hx, List.filter_cons_of_pos hx,
          List.filter_cons_of_neg hy]
      · rw [List.filter_cons_of_neg hx, List.filter_cons_of_neg hx, List.filter_cons]
    · rfl

theorem filter_sortOnto {xs done : List α}
    (h : ∀ x ∈ xs, ∀ y ∈ xs ++ done, p x = true → before x y = true → p y = false) :
    (sortOnto before done xs).filter p = (xs.filter p).reverse ++ done.filter p := by
  induction xs generalizing done with
  | nil => rfl
  | cons x xs ih =>
    have hperm := (insertReversed_perm before x done).append_left xs
    have hfirst : (insertReversed before x done).filter p = (x :: done).filter p :=
      filter_insertReversed fun y hy => h x (.head xs) y (List.mem_append_right _ hy)
    rw [sortOnto,
      ih fun a ha b hb => h a (.tail x ha) b ((hperm.trans List.perm_middle).mem_iff.1 hb),
      hfirst, List.filter_cons, List.filter_cons]
    split
    · rw [List.reverse_cons, List.append_assoc, List.singleton_append]
    · rfl

end Ties

theorem sortsStably_stableSort {compare : α → α → Ordering} {items : List α}
    (h : TotalPreorderOn compare items) :
    SortsStably compare items (stableSort (fun a b => compare a b == .lt) items) where
  perm := stableSort_perm _ items
  ordered := by
    have hall : TotalPreorderOn compare (items ++ []) := (List.append_nil items).symm ▸ h
    exact List.pairwise_reverse.2 (hall.pairwise_sortOnto .nil)
  ties a ha := by
    have hties : ∀ x ∈ items, ∀ y ∈ items ++ [], (compare a x == .eq) = true →
        (compare x y == .lt) = true → (compare a y == .eq) = false := by
      intro x hx y hy hax hxy
      rw [List.append_nil] at hy
      have hne := h.not_eq_of_lt ha hx hy (beq_iff_eq.1 hax) (beq_iff_eq.1 hxy)
      exact Bool.eq_false_iff.2 fun hay => hne (beq_iff_eq.1 hay)
    rw [stableSort, List.filter_reverse, filter_sortOnto hties, List.filter_nil, List.append_nil,
      List.reverse_reverse]

namespace Sorter

/-- The sort that runs here never breaks off. -/
def insertion : Sorter where
  run compare items := some (stableSort (fun a b => compare a b == .lt) items)
  perm h := Option.some.inj h ▸ stableSort_perm _ _
  sorts h := ⟨_, rfl, sortsStably_stableSort h⟩

end Sorter

instance {compare : α → α → Ordering} {items : List α} :
    Decidable (TotalPreorderOn compare items) :=
  decidable_of_iff
    ((∀ a ∈ items, compare a a = .eq) ∧
      (∀ a ∈ items, ∀ b ∈ items, (compare a b).swap = compare b a) ∧
      ∀ a ∈ items, ∀ b ∈ items, ∀ c ∈ items,
        compare a b ≠ .gt → compare b c ≠ .gt → compare a c ≠ .gt)
    ⟨fun ⟨hrefl, hswap, htrans⟩ => ⟨hrefl, hswap, htrans⟩, fun h => ⟨h.refl, h.swap, h.trans⟩⟩

/-- A sorter that breaks off wherever it may. -/
def Sorter.cautious : Sorter where
  run compare items := if TotalPreorderOn compare items then insertion.run compare items else none
  perm h := insertion.perm (Option.ite_none_right_eq_some.1 h).2
  sorts h := by
    rw [if_pos h]
    exact insertion.sorts h

/-! ## One order -/

section Order

variable {compare : α → α → Ordering} {items : List α}

theorem TotalPreorderOn.eq_of_ne_gt (h : TotalPreorderOn compare items) {a b : α} (ha : a ∈ items)
    (hb : b ∈ items) (hab : compare a b ≠ .gt) (hba : compare b a ≠ .gt) : compare a b = .eq := by
  rw [← h.swap a ha b hb] at hba
  cases hcmp : compare a b with
  | lt => rw [hcmp] at hba; exact absurd rfl hba
  | eq => rfl
  | gt => exact absurd hcmp hab

/-- The head of a list in order is behind none of the entries. -/
theorem TotalPreorderOn.head_ne_gt {x : α} (h : TotalPreorderOn compare items) (hx : x ∈ items)
    {xs : List α} (hxs : (x :: xs).Pairwise fun a b => compare a b ≠ .gt) :
    ∀ y ∈ x :: xs, compare x y ≠ .gt := by
  refine List.forall_mem_cons.2 ⟨?_, (List.pairwise_cons.1 hxs).1⟩
  rw [h.refl x hx]
  decide

theorem eq_of_ordered {xs ys : List α} (h : TotalPreorderOn compare xs) (hperm : xs.Perm ys)
    (hxs : xs.Pairwise fun a b => compare a b ≠ .gt)
    (hys : ys.Pairwise fun a b => compare a b ≠ .gt)
    (hties : ∀ a ∈ xs, xs.filter (fun b => compare a b == .eq) =
      ys.filter (fun b => compare a b == .eq)) : xs = ys := by
  induction xs generalizing ys with
  | nil => exact hperm.nil_eq
  | cons x xs ih =>
    cases ys with
    | nil => exact absurd hperm.length_eq (Nat.succ_ne_zero _)
    | cons y ys =>
      have hx : x ∈ x :: xs := .head xs
      have hy : y ∈ x :: xs := hperm.mem_iff.2 (.head ys)
      have hxx : compare x x = .eq := h.refl x hx
      have hxy : compare x y = .eq :=
        h.eq_of_ne_gt hx hy (h.head_ne_gt hx hxs y hy)
          (h.head_ne_gt hy hys x (hperm.mem_iff.1 hx))
      -- The heads tie, so that they are the first of those that tie with `x`.
      have hfirst := hties x hx
      rw [List.filter_cons, List.filter_cons, if_pos (beq_iff_eq.2 hxx),
        if_pos (beq_iff_eq.2 hxy)] at hfirst
      obtain ⟨rfl, -⟩ := List.cons.inj hfirst
      refine congrArg (x :: ·) (ih (h.subset fun a ha => .tail x ha) hperm.cons_inv
        (List.pairwise_cons.1 hxs).2 (List.pairwise_cons.1 hys).2 fun a ha => ?_)
      have htail := hties a (.tail x ha)
      rw [List.filter_cons, List.filter_cons] at htail
      split at htail
      · exact (List.cons.inj htail).2
      · exact htail

theorem SortsStably.unique {xs ys : List α} (h : TotalPreorderOn compare items)
    (hxs : SortsStably compare items xs) (hys : SortsStably compare items ys) : xs = ys :=
  eq_of_ordered (h.subset fun _ ha => hxs.perm.mem_iff.1 ha) (hxs.perm.trans hys.perm.symm)
    hxs.ordered hys.ordered fun a ha =>
      (hxs.ties a (hxs.perm.mem_iff.1 ha)).trans (hys.ties a (hxs.perm.mem_iff.1 ha)).symm

end Order

/-! ## Sorting under a change of entries -/

section StableSort

variable {α β : Type} {f : α → β} {P : α → Prop} {before : α → α → Bool}
  {before' : β → β → Bool}

theorem insertReversed_map (h : ∀ a b, P a → P b → before' (f a) (f b) = before a b) {x : α}
    {ys : List α} (hx : P x) (hys : ∀ y ∈ ys, P y) :
    insertReversed before' (f x) (ys.map f) = (insertReversed before x ys).map f := by
  induction ys with
  | nil => rfl
  | cons y ys ih =>
    have hxy := h x y hx (hys y List.mem_cons_self)
    have hrest := ih fun z hz => hys z (List.mem_cons_of_mem _ hz)
    by_cases hb : before x y = true
    · simp only [List.map_cons, insertReversed, hxy, if_pos hb, hrest]
    · simp only [List.map_cons, insertReversed, hxy, if_neg hb]

theorem sortOnto_map (h : ∀ a b, P a → P b → before' (f a) (f b) = before a b)
    {done xs : List α} (hdone : ∀ y ∈ done, P y) (hxs : ∀ x ∈ xs, P x) :
    sortOnto before' (done.map f) (xs.map f) = (sortOnto before done xs).map f := by
  induction xs generalizing done with
  | nil => rfl
  | cons x xs ih =>
    have hx := hxs x List.mem_cons_self
    have hinsert : ∀ y ∈ insertReversed before x done, P y := by
      intro y hy
      rcases List.mem_cons.1 ((insertReversed_perm before x done).mem_iff.1 hy) with rfl | hy
      · exact hx
      · exact hdone y hy
    rw [List.map_cons, sortOnto, sortOnto, insertReversed_map h hx hdone]
    exact ih hinsert fun z hz => hxs z (List.mem_cons_of_mem _ hz)

/-- A change of the entries that keeps their order may come before or after the sort. -/
theorem stableSort_map (h : ∀ a b, P a → P b → before' (f a) (f b) = before a b) {xs : List α}
    (hxs : ∀ x ∈ xs, P x) : stableSort before' (xs.map f) = (stableSort before xs).map f := by
  have honto : sortOnto before' [] (xs.map f) = (sortOnto before [] xs).map f :=
    sortOnto_map h (fun y hy => absurd hy List.not_mem_nil) hxs
  rw [stableSort, stableSort, honto, List.map_reverse]

end StableSort

section Change

variable {α β : Type} {compare : α → α → Ordering} {compare' : β → β → Ordering} {f : α → β}
  {items : List α}

theorem TotalPreorderOn.map (hf : ∀ a ∈ items, ∀ b ∈ items, compare' (f a) (f b) = compare a b)
    (h : TotalPreorderOn compare items) : TotalPreorderOn compare' (items.map f) where
  refl := List.forall_mem_map.2 fun a ha => (hf a ha a ha).trans (h.refl a ha)
  swap := List.forall_mem_map.2 fun a ha => List.forall_mem_map.2 fun b hb => by
    rw [hf a ha b hb, hf b hb a ha]
    exact h.swap a ha b hb
  trans := List.forall_mem_map.2 fun a ha => List.forall_mem_map.2 fun b hb =>
    List.forall_mem_map.2 fun c hc => by
      rw [hf a ha b hb, hf b hb c hc, hf a ha c hc]
      exact h.trans a ha b hb c hc

theorem totalPreorderOn_map_iff
    (hf : ∀ a ∈ items, ∀ b ∈ items, compare' (f a) (f b) = compare a b) :
    TotalPreorderOn compare' (items.map f) ↔ TotalPreorderOn compare items := by
  refine ⟨fun h => ⟨fun a ha => ?_, fun a ha b hb => ?_, fun a ha b hb c hc => ?_⟩, .map hf⟩
  · rw [← hf a ha a ha]
    exact h.refl _ (List.mem_map_of_mem ha)
  · rw [← hf a ha b hb, ← hf b hb a ha]
    exact h.swap _ (List.mem_map_of_mem ha) _ (List.mem_map_of_mem hb)
  · rw [← hf a ha b hb, ← hf b hb c hc, ← hf a ha c hc]
    exact h.trans _ (List.mem_map_of_mem ha) _ (List.mem_map_of_mem hb) _ (List.mem_map_of_mem hc)

theorem SortsStably.map (hf : ∀ a ∈ items, ∀ b ∈ items, compare' (f a) (f b) = compare a b)
    {sorted : List α} (h : SortsStably compare items sorted) :
    SortsStably compare' (items.map f) (sorted.map f) where
  perm := h.perm.map f
  ordered := by
    refine List.pairwise_map.2 (h.ordered.imp_of_mem fun ha hb hab => ?_)
    rwa [hf _ (h.perm.mem_iff.1 ha) _ (h.perm.mem_iff.1 hb)]
  ties := List.forall_mem_map.2 fun a ha => by
    have hkept : ∀ {xs : List α}, (∀ b ∈ xs, b ∈ items) →
        (xs.map f).filter (fun c => compare' (f a) c == .eq) =
          (xs.filter fun b => compare a b == .eq).map f := by
      intro xs hxs
      rw [List.filter_map]
      refine congrArg (List.map f) (List.filter_congr fun b hb => ?_)
      show (compare' (f a) (f b) == .eq) = _
      rw [hf a ha b (hxs b hb)]
    rw [hkept fun b hb => h.perm.mem_iff.1 hb, hkept fun b hb => hb, h.ties a ha]

namespace Sorter

/-- The sort sees its entries only by comparing them, so that it is all one to it which entries are
compared alike. -/
def IsBlind (s : Sorter) : Prop :=
  ∀ {α β : Type} {compare : α → α → Ordering} {compare' : β → β → Ordering} {f : α → β}
    {items : List α}, (∀ a ∈ items, ∀ b ∈ items, compare' (f a) (f b) = compare a b) →
      s.run compare' (items.map f) = (s.run compare items).map (List.map f)

theorem isBlind_insertion : insertion.IsBlind := by
  intro α β compare compare' f items hf
  have hbefore : ∀ a b, a ∈ items → b ∈ items →
      (compare' (f a) (f b) == .lt) = (compare a b == .lt) := fun a b ha hb => by rw [hf a ha b hb]
  exact congrArg some (stableSort_map hbefore fun a ha => ha)

theorem isBlind_cautious : cautious.IsBlind := by
  intro α β compare compare' f items hf
  show (if _ then _ else _) = Option.map _ (if _ then _ else _)
  by_cases h : TotalPreorderOn compare items
  · rw [if_pos h, if_pos ((totalPreorderOn_map_iff hf).2 h)]
    exact isBlind_insertion hf
  · rw [if_neg h, if_neg (mt (totalPreorderOn_map_iff hf).1 h)]
    rfl

/-- By a total preorder a change of the entries may come before or after any sort. -/
theorem run_map (s : Sorter)
    (hf : ∀ a ∈ items, ∀ b ∈ items, compare' (f a) (f b) = compare a b)
    (h : TotalPreorderOn compare items) :
    ∃ sorted, s.run compare items = some sorted ∧ SortsStably compare items sorted ∧
      s.run compare' (items.map f) = some (sorted.map f) := by
  obtain ⟨sorted, hrun, hsorted⟩ := s.sorts h
  obtain ⟨sorted', hrun', hsorted'⟩ := s.sorts (h.map hf)
  rw [hsorted'.unique (h.map hf) (hsorted.map hf)] at hrun'
  exact ⟨sorted, hrun, hsorted, hrun'⟩

end Sorter

end Change

end EntityQuery
