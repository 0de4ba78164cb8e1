import EntityQuery.Filter.BindDocument
import EntityQuery.Proofs.Filter.Fitting

/-!
# Both binders fail together

`toPredicate` and `toDocumentFilter` go through a tree on their own, and they build different
things from it. `fault?_toDocumentFilter` says that they stop at the same fault, whatever the tree;
they differ only in whether the fault of a text test names the field. A valid tree has no fault
(`binds_of_validate`).
-/

namespace EntityQuery

variable {α β γ β' γ' : Type} {m : FieldMap α}

namespace BindError

/-- The error with what both binders say about it: neither names the field of a text test. -/
def unnamed : BindError → BindError
  | textArgument op _ => textArgument op none
  | e => e

/-- The fault that stops a binding, if any. -/
def fault? : Except BindError β → Option BindError
  | .ok _ => none
  | .error e => some e.unnamed

theorem fault?_eq_none_iff {x : Except BindError β} : fault? x = none ↔ ∃ b, x = .ok b := by
  cases x with
  | ok b => exact ⟨fun _ => ⟨b, rfl⟩, fun _ => rfl⟩
  | error e =>
    constructor
    · intro h
      cases h
    · rintro ⟨b, hb⟩
      cases hb

/-- Two bindings in steps fail alike when their first steps do, and their second steps do after
first ones that succeed. -/
theorem fault?_bind {x : Except BindError β} {y : Except BindError γ}
    {f : β → Except BindError β'} {g : γ → Except BindError γ'} (hfirst : fault? x = fault? y)
    (hnext : ∀ b c, x = .ok b → y = .ok c → fault? (f b) = fault? (g c)) :
    fault? (x >>= f) = fault? (y >>= g) := by
  cases x with
  | error e =>
    cases y with
    | error e' => exact hfirst
    | ok c => cases hfirst
  | ok b =>
    cases y with
    | error e' => cases hfirst
    | ok c => exact hnext b c rfl rfl

/-- Building something from what was bound adds no fault. -/
theorem fault?_bind_pure (x : Except BindError β) (f : β → γ) :
    fault? (x >>= fun b => pure (f b)) = fault? x := by
  cases x <;> rfl

end BindError

open BindError

namespace Node

/-! ## The same fault -/

/-- The tests of texts ask both binders for a single text. -/
theorem fault?_patternCondition (f : Field α) (op : CallOp) (front back : String) (test : TextTest)
    (negated : Bool) (vs : List Value) :
    fault? (patternCondition f op front back vs) = fault? (textPredicate f op test negated vs) := by
  fun_cases textPredicate f op test negated vs with
  | case1 needle => rfl
  | case2 vs hvs =>
    have hcondition :
        patternCondition f op front back vs = .error (.textArgument op (some f.name)) := by
      fun_cases patternCondition f op front back vs with
      | case1 needle => exact absurd rfl (hvs needle)
      | case2 => rfl
    rw [hcondition]
    rfl

theorem fault?_callCondition (f : Field α) (op : CallOp) (vs : List Value) :
    fault? (callCondition f op vs) = fault? (callPredicate f op vs) := by
  cases op with
  | contains => exact fault?_patternCondition f _ _ _ _ _ vs
  | startsWith => exact fault?_patternCondition f _ _ _ _ _ vs
  | endsWith => exact fault?_patternCondition f _ _ _ _ _ vs
  | notContains =>
    exact (fault?_bind_pure _ _).trans (fault?_patternCondition f _ _ _ _ _ vs)
  | between => rcases vs with _ | ⟨low, _ | ⟨high, _ | ⟨third, rest⟩⟩⟩ <;> rfl
  | isIn | notIn | isNull | isNotNull => rfl

/-- Both binders stop at the same fault of a tree, or at none. The induction is on the recursion
that they share; up to the operator of a clause they look up the same field and values. -/
theorem fault?_toDocumentFilter (m : FieldMap α) (n : Node) :
    fault? (n.toDocumentFilter m) = fault? (n.toPredicate m) := by
  induction n using clauseInduction with
  | literal l | field name => rfl
  | group n s ih => exact ih
  | negation n s ih => exact fault?_bind ih fun _ _ _ _ => rfl
  | and l r s ihl ihr | or l r s ihl ihr =>
    exact fault?_bind ihl fun _ _ _ _ => fault?_bind ihr fun _ _ _ _ => rfl
  | compare c l r s =>
    refine fault?_bind rfl fun f f' hf hf' => ?_
    cases hf.symm.trans hf'
    exact fault?_bind rfl fun _ _ _ _ => rfl
  | call op t args s =>
    refine fault?_bind rfl fun f f' hf hf' => ?_
    cases hf.symm.trans hf'
    refine fault?_bind rfl fun vs vs' hvs hvs' => ?_
    cases hvs.symm.trans hvs'
    exact (fault?_bind_pure _ _).trans (fault?_callCondition f op vs)

theorem toDocumentFilter_ok_iff {n : Node} :
    (∃ d, n.toDocumentFilter m = .ok d) ↔ ∃ p, n.toPredicate m = .ok p := by
  rw [← fault?_eq_none_iff, ← fault?_eq_none_iff, fault?_toDocumentFilter]

/-- A valid tree binds in both ways, whatever the limits of its sizes. -/
theorem binds_of_validate {limits : FilterLimits} {n : Node} (h : n.validate m limits = .ok ()) :
    (∃ p, n.toPredicate m = .ok p) ∧ ∃ d, n.toDocumentFilter m = .ok d := by
  obtain ⟨p, hp, -⟩ := fits_of_validate h
  exact ⟨⟨p, hp⟩, toDocumentFilter_ok_iff.2 ⟨p, hp⟩⟩

end Node

end EntityQuery
