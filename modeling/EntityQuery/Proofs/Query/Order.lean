import EntityQuery.Query.Sort

/-!
# The order of a plan

Two entities that are compared the other way round stand in the opposite order, whatever values they
hold (`SortPlan.compare_swap`).
-/

namespace EntityQuery

/-! ## Values -/

theorem Number.compare_swap (x y : Number) : (x.compare y).map Ordering.swap = y.compare x := by
  cases x with
  | finite s u =>
    cases y with
    | finite t v => exact congrArg some (Std.OrientedOrd.eq_swap (a := signedUnits t v)).symm
    | infinite t => cases t <;> rfl
    | nan => rfl
  | infinite s =>
    cases y with
    | finite t v => cases s <;> rfl
    | infinite t => cases s <;> cases t <;> rfl
    | nan => rfl
  | nan => cases y <;> rfl

theorem Date.compare_swap (a b : Date) : (a.compare b).swap = b.compare a := by
  simp only [Date.compare, Ordering.swap_then, ← Std.OrientedOrd.eq_swap]

theorem Time.compare_swap (a b : Time) : (a.compare b).swap = b.compare a := by
  simp only [Time.compare, Ordering.swap_then, ← Std.OrientedOrd.eq_swap]

theorem Instant.compare_swap (a b : Instant) : (a.compare b).swap = b.compare a := by
  simp only [Instant.compare, Ordering.swap_then, Date.compare_swap, Time.compare_swap]

theorem Guid.compare_swap (a b : Guid) : (a.compare b).swap = b.compare a :=
  Std.OrientedOrd.eq_swap.symm

namespace Value

theorem compareText_swap (a b : String) : (compareText a b).swap = compareText b a :=
  Std.OrientedOrd.eq_swap.symm

theorem compare_swap (v w : Value) : (v.compare w).map Ordering.swap = w.compare v := by
  cases v with
  | null => cases w <;> rfl
  | string a =>
    cases w with
    | string b => exact congrArg some (compareText_swap a b)
    | _ => rfl
  | number x =>
    cases w with
    | number y => exact Number.compare_swap x y
    | _ => rfl
  | boolean a =>
    cases w with
    | boolean b => exact congrArg some Std.OrientedOrd.eq_swap.symm
    | _ => rfl
  | dateTime i =>
    cases w with
    | dateTime j => exact congrArg some (Instant.compare_swap i j)
    | _ => rfl
  | guid g =>
    cases w with
    | guid h => exact congrArg some (Guid.compare_swap g h)
    | _ => rfl

theorem sortCompare_swap (v w : Value) : (v.sortCompare w).swap = w.sortCompare v := by
  have hvalues : ((v.compare w).getD .eq).swap = (w.compare v).getD .eq := by
    rw [← compare_swap v w]
    cases v.compare w <;> rfl
  cases v with
  | null => cases w <;> rfl
  | _ =>
    cases w with
    | null => rfl
    | _ => exact hvalues

end Value

/-! ## Plans -/

namespace SortPlan

variable {α β : Type}

theorem compareBy_swap (read : Field α → β → Value) (a b : β) (ks : List (SortKey α)) :
    (compareBy read a b ks).swap = compareBy read b a ks := by
  induction ks with
  | nil => rfl
  | cons k ks ih =>
    have hkey : (k.direction.apply ((read k.field a).sortCompare (read k.field b))).swap =
        k.direction.apply ((read k.field b).sortCompare (read k.field a)) := by
      rw [← Value.sortCompare_swap (read k.field a)]
      cases k.direction <;> rfl
    rw [compareBy, compareBy, Ordering.swap_then, hkey, ih]

theorem compare_swap (p : SortPlan α) (a b : α) : (p.compare a b).swap = p.compare b a :=
  compareBy_swap _ a b p.keys

end SortPlan

end EntityQuery
