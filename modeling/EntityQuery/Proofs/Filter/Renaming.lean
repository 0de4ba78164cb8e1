import EntityQuery.Filter.BindDocument
import EntityQuery.Proofs.Filter.Faults
import EntityQuery.Proofs.Text.Case

/-!
# Fields under other spellings

`Node.Renames R` relates two trees that differ in nothing but the names of their fields, each name
being related by `R` to the one in its place. A field map finds a field under every spelling of its
name, so that trees whose names differ in case are valid for the same limits and bind alike
(`Node.Renames.binds`).
-/

namespace EntityQuery

variable {α : Type} {m : FieldMap α} {R : String → String → Prop}

/-- A field is found under its name in any case. -/
theorem FieldMap.get?_eq_of_eqIgnoreAsciiCase (m : FieldMap α) {a b : String}
    (h : Text.eqIgnoreAsciiCase a b = true) : m.get? a = m.get? b :=
  congrArg m.fields.find? (Text.lower_eq_of_eqIgnoreAsciiCase h)

theorem FieldMap.Admits.of_eqIgnoreAsciiCase {a b : String} {c : OperatorClass} {f : Field α}
    (hf : m.Admits a c f) (h : Text.eqIgnoreAsciiCase a b = true) : m.Admits b c f :=
  ⟨(m.get?_eq_of_eqIgnoreAsciiCase h).symm.trans hf.found, hf.canFilter, hf.permits⟩

namespace Node

/-- The second tree is the first with other names for its fields. -/
inductive Renames (R : String → String → Prop) : Node → Node → Prop where
  | literal (l : Literal) : Renames R (literal l) (literal l)
  | field {name name' : String} (h : R name name') : Renames R (field name) (field name')
  | negation {n n' : Node} (s : Size) (h : Renames R n n') :
      Renames R (negation n s) (negation n' s)
  | binary (op : BinaryOp) {l l' r r' : Node} (s : Size) (hl : Renames R l l')
      (hr : Renames R r r') : Renames R (binary op l r s) (binary op l' r' s)
  | call (op : CallOp) {t t' : Node} (args : List Node) (s : Size) (h : Renames R t t') :
      Renames R (call op t args s) (call op t' args s)
  | group {n n' : Node} (s : Size) (h : Renames R n n') : Renames R (group n s) (group n' s)

namespace Renames

variable {n n' : Node}

theorem size_eq (h : n.Renames R n') : n'.size = n.size := by
  cases h <;> rfl

/-- Without other spellings there is only one tree. -/
theorem eq (h : n.Renames Eq n') : n' = n := by
  induction h with
  | literal l => rfl
  | field h => rw [h]
  | negation s _ ih | call op args s _ ih | group s _ ih => rw [ih]
  | binary op s _ _ ihl ihr => rw [ihl, ihr]

theorem symm (hR : ∀ a b, R a b → R b a) (h : n.Renames R n') : n'.Renames R n := by
  induction h with
  | literal l => exact .literal l
  | field h => exact .field (hR _ _ h)
  | negation s _ ih => exact .negation s ih
  | binary op s _ _ ihl ihr => exact .binary op s ihl ihr
  | call op args s _ ih => exact .call op args s ih
  | group s _ ih => exact .group s ih

/-! ## The builders -/

theorem mkNot (h : n.Renames R n') : (mkNot n).Renames R (mkNot n') := by
  rw [Node.mkNot, Node.mkNot, h.size_eq]
  exact .negation _ h

theorem mkBinary (op : BinaryOp) {l l' r r' : Node} (hl : l.Renames R l') (hr : r.Renames R r') :
    (mkBinary op l r).Renames R (mkBinary op l' r') := by
  rw [Node.mkBinary, Node.mkBinary, hl.size_eq, hr.size_eq]
  exact .binary op _ hl hr

theorem mkCall (op : CallOp) (args : List Node) (h : n.Renames R n') :
    (mkCall op n args).Renames R (mkCall op n' args) := by
  rw [Node.mkCall, Node.mkCall, h.size_eq]
  exact .call op args _ h

theorem mkGroup (h : n.Renames R n') : (mkGroup n).Renames R (mkGroup n') := by
  rw [Node.mkGroup, Node.mkGroup, h.size_eq]
  exact .group _ h

/-! ## Binding -/

/-- The case of names changes neither what is well-typed nor what is bound. -/
theorem binds (h : n.Renames (fun a b => Text.eqIgnoreAsciiCase a b = true) n')
    (hn : n.WellTyped m) :
    n'.WellTyped m ∧ n'.toPredicate m = n.toPredicate m ∧
      n'.toDocumentFilter m = n.toDocumentFilter m := by
  induction hn generalizing n' with
  | negation s _ ih =>
    cases h with
    | negation _ h =>
      obtain ⟨htyped, hp, hd⟩ := ih h
      exact ⟨.negation s htyped, by rw [toPredicate, toPredicate, hp],
        by rw [toDocumentFilter, toDocumentFilter, hd]⟩
  | group s _ ih =>
    cases h with
    | group _ h =>
      obtain ⟨htyped, hp, hd⟩ := ih h
      exact ⟨.group s htyped, hp, hd⟩
  | and s _ _ ihl ihr =>
    cases h with
    | binary _ _ hl hr =>
      obtain ⟨hltyped, hp, hd⟩ := ihl hl
      obtain ⟨hrtyped, hq, he⟩ := ihr hr
      exact ⟨.and s hltyped hrtyped, by rw [toPredicate, toPredicate, hp, hq],
        by rw [toDocumentFilter, toDocumentFilter, hd, he]⟩
  | or s _ _ ihl ihr =>
    cases h with
    | binary _ _ hl hr =>
      obtain ⟨hltyped, hp, hd⟩ := ihl hl
      obtain ⟨hrtyped, hq, he⟩ := ihr hr
      exact ⟨.or s hltyped hrtyped, by rw [toPredicate, toPredicate, hp, hq],
        by rw [toDocumentFilter, toDocumentFilter, hd, he]⟩
  | comparison s hf hv =>
    cases h with
    | binary _ _ hl hr =>
      cases hl with
      | field hname =>
        cases hr
        have hf' := hf.of_eqIgnoreAsciiCase hname
        exact ⟨.comparison s hf' hv,
          by rw [toPredicate, toPredicate, boundField_of_admits hf', boundField_of_admits hf],
          by rw [toDocumentFilter, toDocumentFilter, boundField_of_admits hf',
            boundField_of_admits hf]⟩
  | call s hf hcount hvs =>
    cases h with
    | call _ _ _ h =>
      cases h with
      | field hname =>
        have hf' := hf.of_eqIgnoreAsciiCase hname
        exact ⟨.call s hf' hcount hvs,
          by rw [toPredicate, toPredicate, boundField_of_admits hf', boundField_of_admits hf],
          by rw [toDocumentFilter, toDocumentFilter, boundField_of_admits hf',
            boundField_of_admits hf]⟩

end Renames

/-- The trees are valid for the same limits, and where they are valid they bind alike. -/
structure BindsAlike (m : FieldMap α) (n n' : Node) : Prop where
  valid : ∀ limits, n'.validate m limits = .ok () ↔ n.validate m limits = .ok ()
  predicate : ∀ limits, n.validate m limits = .ok () → n'.toPredicate m = n.toPredicate m
  document : ∀ limits, n.validate m limits = .ok () →
    n'.toDocumentFilter m = n.toDocumentFilter m

theorem Renames.bindsAlike {n n' : Node} (m : FieldMap α)
    (h : n.Renames (fun a b => Text.eqIgnoreAsciiCase a b = true) n') : n.BindsAlike m n' where
  valid limits := by
    have htyped : n'.WellTyped m ↔ n.WellTyped m :=
      ⟨fun hn => ((h.symm fun _ _ => Text.eqIgnoreAsciiCase_symm).binds hn).1,
        fun hn => (h.binds hn).1⟩
    rw [validate_eq_ok, validate_eq_ok, depth, depth, cost, cost, h.size_eq, htyped]
  predicate _ hvalid := (h.binds (wellTyped_of_validate hvalid)).2.1
  document _ hvalid := (h.binds (wellTyped_of_validate hvalid)).2.2

end Node

end EntityQuery
