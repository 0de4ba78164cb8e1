import EntityQuery.Proofs.RoundTrip.Survival

/-!
# Predicates that fit a field map

`Predicate.Fits` says what can be relied on in a predicate that was made from a valid filter: its
fields are fields of the map, texts are looked for in text fields, and values are finite values of
the types of the fields they are compared with, which their texts give back. `fits_of_validate` says
that every valid filter binds to such a predicate.
-/

namespace EntityQuery

variable {α : Type} {m : FieldMap α}

/-! ## Values of a type -/

theorem Number.exists_compare {x y : Number} (hx : x.isFinite = true) (hy : y.isFinite = true) :
    ∃ o, x.compare y = some o := by
  cases x with
  | finite s u =>
    cases y with
    | finite s' u' => exact ⟨_, rfl⟩
    | infinite _ | nan => cases hy
  | infinite _ | nan => cases hx

namespace Value

/-- Is the value no number but a finite one? -/
def isFinite : Value → Bool
  | number x => x.isFinite
  | _ => true

structure HasType (v : Value) (t : FieldType) : Prop where
  type : v.type? = some t
  finite : v.isFinite = true

instance (v : Value) (t : FieldType) : Decidable (v.HasType t) :=
  decidable_of_iff (v.type? = some t ∧ v.isFinite = true)
    ⟨fun h => ⟨h.1, h.2⟩, fun h => ⟨h.type, h.finite⟩⟩

/-- A value that a filter may compare with a field of the type. -/
structure IsOperand (v : Value) (t : FieldType) : Prop extends v.HasType t where
  settled : v.settled = v

theorem HasType.isNull {v : Value} {t : FieldType} (h : v.HasType t) : v.isNull = false := by
  cases v with
  | null => nomatch h.type
  | _ => rfl

/-- Values of one type have an order. -/
theorem HasType.exists_compare {v w : Value} {t : FieldType} (hv : v.HasType t)
    (hw : w.HasType t) : ∃ o, v.compare w = some o := by
  have htype : v.type? = w.type? := hv.type.trans hw.type.symm
  cases v with
  | null => nomatch hv.type
  | string a =>
    cases w with
    | string b => exact ⟨_, rfl⟩
    | _ => nomatch htype
  | number x =>
    cases w with
    | number y => exact Number.exists_compare hv.finite hw.finite
    | _ => nomatch htype
  | boolean a =>
    cases w with
    | boolean b => exact ⟨_, rfl⟩
    | _ => nomatch htype
  | dateTime a =>
    cases w with
    | dateTime b => exact ⟨_, rfl⟩
    | _ => nomatch htype
  | guid a =>
    cases w with
    | guid b => exact ⟨_, rfl⟩
    | _ => nomatch htype

end Value

/-- The value of a literal is a finite value of the type at which it is read. -/
theorem Literal.hasType_of_resolve {l : Literal} {t : FieldType} {v : Value}
    (h : l.resolve t = some v) : v.HasType t := by
  refine ⟨type?_of_resolve h, ?_⟩
  cases v with
  | number x => exact isFinite_of_resolve h
  | null | string _ | boolean _ | dateTime _ | guid _ => rfl

theorem Literal.isOperand_of_resolve {l : Literal} {t : FieldType} {v : Value}
    (h : l.resolve t = some v) : v.IsOperand t := ⟨hasType_of_resolve h, settled_of_resolve h⟩

theorem Literal.Resolves.isOperand {t : FieldType} {ls : List Literal} {vs : List Value}
    (h : Resolves t ls vs) : ∀ v ∈ vs, v.IsOperand t := by
  intro v hv
  obtain ⟨l, -, hl⟩ := h.exists_of_mem hv
  exact isOperand_of_resolve hl

/-! ## What binding makes -/

/-- Every test is of a field of the map, with values of the type of the field. -/
inductive Predicate.Fits (m : FieldMap α) : Predicate α → Prop where
  | compare {f : Field α} {v : Value} (op : Comparison) :
      f ∈ m.fields.entries → v.IsOperand f.type → Fits m (compare f op v)
  | text {f : Field α} (test : TextTest) (needle : String) (negated : Bool) :
      f ∈ m.fields.entries → f.type = .string → Fits m (text f test needle negated)
  | isIn {f : Field α} {vs : List Value} (negated : Bool) :
      f ∈ m.fields.entries → vs ≠ [] → (∀ v ∈ vs, v.IsOperand f.type) →
      Fits m (isIn f vs negated)
  | isNull {f : Field α} (negated : Bool) : f ∈ m.fields.entries → Fits m (isNull f negated)
  | and {p q : Predicate α} : Fits m p → Fits m q → Fits m (and p q)
  | or {p q : Predicate α} : Fits m p → Fits m q → Fits m (or p q)
  | not {p : Predicate α} : Fits m p → Fits m (not p)

namespace Node

theorem callPredicate_fits {f : Field α} {op : CallOp} {ls : List Literal} {vs : List Value}
    (hf : f ∈ m.fields.entries) (hop : op.operatorClass.permits f.type = true)
    (hcount : op.admits ls.length = true) (hvs : Literal.Resolves f.type ls vs) :
    ∃ p, callPredicate f op vs = .ok p ∧ p.Fits m := by
  have htext : op.operatorClass = .stringOnly → op.arity = (1, some 1) →
      f.type = .string ∧ ∃ needle, vs = [.string needle] := by
    intro hclass harity
    rw [hclass] at hop
    have htype : f.type = .string := by simpa [OperatorClass.permits] using hop
    exact ⟨htype, Literal.Resolves.eq_string (htype ▸ hvs) (CallOp.eq_of_admits harity hcount)⟩
  have hsome : op.arity = (1, none) → vs ≠ [] := by
    intro harity hnil
    simp only [CallOp.admits, harity, Bool.and_eq_true, decide_eq_true_eq] at hcount
    have hlen := hvs.length_eq
    rw [hnil, List.length_nil] at hlen
    omega
  cases op with
  | contains =>
    obtain ⟨htype, needle, rfl⟩ := htext rfl rfl
    exact ⟨_, rfl, .text _ needle _ hf htype⟩
  | notContains =>
    obtain ⟨htype, needle, rfl⟩ := htext rfl rfl
    exact ⟨_, rfl, .text _ needle _ hf htype⟩
  | startsWith =>
    obtain ⟨htype, needle, rfl⟩ := htext rfl rfl
    exact ⟨_, rfl, .text _ needle _ hf htype⟩
  | endsWith =>
    obtain ⟨htype, needle, rfl⟩ := htext rfl rfl
    exact ⟨_, rfl, .text _ needle _ hf htype⟩
  | isIn => exact ⟨_, rfl, .isIn _ hf (hsome rfl) hvs.isOperand⟩
  | notIn => exact ⟨_, rfl, .isIn _ hf (hsome rfl) hvs.isOperand⟩
  | between =>
    obtain ⟨low, high, rfl⟩ := hvs.eq_pair (CallOp.eq_of_admits rfl hcount)
    exact ⟨_, rfl, .and (.compare _ hf (hvs.isOperand low (by simp)))
      (.compare _ hf (hvs.isOperand high (by simp)))⟩
  | isNull => exact ⟨_, rfl, .isNull _ hf⟩
  | isNotNull => exact ⟨_, rfl, .isNull _ hf⟩

theorem fits_of_wellTyped {n : Node} (h : n.WellTyped m) :
    ∃ p, n.toPredicate m = .ok p ∧ p.Fits m := by
  induction h with
  | negation s h ih =>
    obtain ⟨p, hp, hfits⟩ := ih
    exact ⟨.not p, by rw [toPredicate, hp]; rfl, .not hfits⟩
  | group s h ih => exact ih
  | and s hl hr ihl ihr =>
    obtain ⟨p, hp, hpfits⟩ := ihl
    obtain ⟨q, hq, hqfits⟩ := ihr
    exact ⟨.and p q, by rw [toPredicate, hp, hq]; rfl, .and hpfits hqfits⟩
  | or s hl hr ihl ihr =>
    obtain ⟨p, hp, hpfits⟩ := ihl
    obtain ⟨q, hq, hqfits⟩ := ihr
    exact ⟨.or p q, by rw [toPredicate, hp, hq]; rfl, .or hpfits hqfits⟩
  | @comparison name c f l v s hf hv =>
    exact ⟨.compare f c v, toPredicate_comparison s hf hv,
      .compare c (FieldMap.mem_of_get? hf.found) (Literal.isOperand_of_resolve hv)⟩
  | @call name op f ls vs s hf hcount hvs =>
    obtain ⟨p, hp, hfits⟩ :=
      callPredicate_fits (FieldMap.mem_of_get? hf.found) hf.permits hcount hvs
    exact ⟨p, (toPredicate_call s hf hvs).trans hp, hfits⟩

theorem fits_of_validate {limits : FilterLimits} {n : Node} (h : n.validate m limits = .ok ()) :
    ∃ p, n.toPredicate m = .ok p ∧ p.Fits m :=
  fits_of_wellTyped (wellTyped_of_validate h)

end Node

end EntityQuery
