import Mathlib.Data.List.Basic

/-!
# Lists read item by item

What `List.mapM` finds in a list, where each item may be unreadable.
-/

namespace EntityQuery

variable {α β γ : Type}

theorem mapM_cons_eq_some {f : α → Option β} {x : α} {xs : List α} {ys : List β} :
    (x :: xs).mapM f = some ys ↔
      ∃ y ys', f x = some y ∧ xs.mapM f = some ys' ∧ y :: ys' = ys := by
  rw [List.mapM_cons]
  cases f x <;> cases xs.mapM f <;> simp

theorem exists_of_mapM {f : α → Option β} {xs : List α} {ys : List β} (h : xs.mapM f = some ys)
    {y : β} (hy : y ∈ ys) : ∃ x ∈ xs, f x = some y := by
  induction xs generalizing ys with
  | nil =>
    obtain rfl := Option.some.inj h
    exact absurd hy List.not_mem_nil
  | cons x xs ih =>
    obtain ⟨y', ys, hx, hxs, rfl⟩ := mapM_cons_eq_some.1 h
    rcases List.mem_cons.1 hy with rfl | hy
    · exact ⟨x, List.mem_cons_self, hx⟩
    · obtain ⟨z, hz, hzy⟩ := ih hxs hy
      exact ⟨z, List.mem_cons_of_mem _ hz, hzy⟩

theorem mapM_bind (f : α → Option β) (g : β → Option γ) (xs : List α) :
    xs.mapM (fun x => (f x).bind g) = (xs.mapM f).bind (·.mapM g) := by
  induction xs with
  | nil => rfl
  | cons x xs ih =>
    rw [List.mapM_cons, List.mapM_cons, ih]
    cases f x with
    | none => rfl
    | some y => cases xs.mapM f <;> cases h : g y <;> simp [h]

theorem mapM_eq_some_map {f : α → Option β} {g : α → β} {xs : List α} :
    xs.mapM f = some (xs.map g) ↔ ∀ x ∈ xs, f x = some (g x) := by
  induction xs with
  | nil => exact ⟨fun _ => nofun, fun _ => rfl⟩
  | cons x xs ih =>
    rw [List.forall_mem_cons, ← ih, mapM_cons_eq_some, List.map_cons]
    constructor
    · rintro ⟨y, ys, hy, hys, heq⟩
      obtain ⟨rfl, rfl⟩ := List.cons_eq_cons.1 heq
      exact ⟨hy, hys⟩
    · rintro ⟨hx, hxs⟩
      exact ⟨g x, xs.map g, hx, hxs, rfl⟩

end EntityQuery
