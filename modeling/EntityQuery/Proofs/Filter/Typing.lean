import EntityQuery.Filter.Bind
import EntityQuery.Filter.Validate

/-!
# Well-typed filters

`Node.WellTyped` says which trees make sense for a field map: clauses on known fields that are open
to filters, by operators that fit the fields' types, with literals that have values at these types.
Validation lets only such trees through (`wellTyped_of_validate`), and the lemmas on `boundField`
and `boundValues` say what binding finds in their clauses.
-/

namespace EntityQuery

variable {α : Type} {m : FieldMap α}

/-- The type of a value; nothing has none. -/
def Value.type? : Value → Option FieldType
  | null => none
  | string _ => some .string
  | number _ => some .number
  | boolean _ => some .boolean
  | dateTime _ => some .dateTime
  | guid _ => some .guid

/-- A name stands for a field to which a filter may apply an operator of a class. -/
structure FieldMap.Admits (m : FieldMap α) (name : String) (c : OperatorClass) (f : Field α) :
    Prop where
  found : m.get? name = some f
  canFilter : f.canFilter = true
  permits : c.permits f.type = true

/-- The values of literals at a type. -/
def Literal.Resolves (t : FieldType) (ls : List Literal) (vs : List Value) : Prop :=
  ls.map (·.resolve t) = vs.map some

inductive Node.WellTyped (m : FieldMap α) : Node → Prop where
  | negation {n : Node} (s : Size) : WellTyped m n → WellTyped m (negation n s)
  | group {n : Node} (s : Size) : WellTyped m n → WellTyped m (group n s)
  | and {l r : Node} (s : Size) : WellTyped m l → WellTyped m r → WellTyped m (binary .and l r s)
  | or {l r : Node} (s : Size) : WellTyped m l → WellTyped m r → WellTyped m (binary .or l r s)
  | comparison {name : String} {c : Comparison} {f : Field α} {l : Literal} {v : Value} (s : Size) :
      m.Admits name c.operatorClass f → l.resolve f.type = some v →
      WellTyped m (binary (.compare c) (field name) (literal l) s)
  | call {name : String} {op : CallOp} {f : Field α} {ls : List Literal} {vs : List Value}
      (s : Size) : m.Admits name op.operatorClass f → op.admits ls.length = true →
      Literal.Resolves f.type ls vs → WellTyped m (call op (field name) (ls.map literal) s)

theorem FieldMap.mem_of_get? {name : String} {f : Field α} (h : m.get? name = some f) :
    f ∈ m.fields.entries :=
  (Registry.mem_of_find? h).1

/-! ## Values of literals -/

/-- The kinds of literals that may stand for values of a type. -/
def LiteralKind.Fits (k : LiteralKind) : FieldType → Prop
  | .string => k = .string ∨ k = .identifier
  | .number => k = .number
  | .boolean => k = .boolean
  | .dateTime => k = .dateTime ∨ k = .string
  | .guid => k = .identifier ∨ k = .string

/-- What a literal of a fitting kind is read as at a type. -/
inductive Literal.StandsFor (l : Literal) : FieldType → Value → Prop where
  | string : l.kind.Fits .string → StandsFor l .string (.string l.text)
  | number {x : Number} : l.kind.Fits .number → Number.read? l.text = some x →
      x.isFinite = true → StandsFor l .number (.number x)
  | boolean : l.kind.Fits .boolean →
      StandsFor l .boolean (.boolean (Text.eqIgnoreAsciiCase l.text "true"))
  | dateTime {i : Instant} : l.kind.Fits .dateTime → Instant.read? l.text = some i →
      StandsFor l .dateTime (.dateTime i)
  | guid {g : Guid} : l.kind.Fits .guid → Guid.read? l.text = some g →
      StandsFor l .guid (.guid g)

theorem Literal.standsFor_of_resolve {l : Literal} {t : FieldType} {v : Value}
    (h : l.resolve t = some v) : l.StandsFor t v := by
  unfold resolve at h
  split at h
  · cases h; exact .string (.inl ‹_›)
  · cases h; exact .string (.inr ‹_›)
  · obtain ⟨x, hx, rfl⟩ := Option.map_eq_some_iff.1 h
    obtain ⟨hread, hfinite⟩ := Option.filter_eq_some_iff.1 hx
    exact .number ‹_› hread hfinite
  · cases h; exact .boolean ‹_›
  · obtain ⟨i, hi, rfl⟩ := Option.map_eq_some_iff.1 h; exact .dateTime (.inl ‹_›) hi
  · obtain ⟨i, hi, rfl⟩ := Option.map_eq_some_iff.1 h; exact .dateTime (.inr ‹_›) hi
  · obtain ⟨g, hg, rfl⟩ := Option.map_eq_some_iff.1 h; exact .guid (.inl ‹_›) hg
  · obtain ⟨g, hg, rfl⟩ := Option.map_eq_some_iff.1 h; exact .guid (.inr ‹_›) hg
  · cases h

theorem Literal.StandsFor.resolve {l : Literal} {t : FieldType} {v : Value}
    (h : l.StandsFor t v) : l.resolve t = some v := by
  obtain ⟨text, kind⟩ := l
  cases h with
  | string hkind => rcases hkind with rfl | rfl <;> rfl
  | number hkind hread hfinite =>
    obtain rfl := hkind
    exact congrArg (Option.map Value.number) (Option.filter_eq_some_iff.2 ⟨hread, hfinite⟩)
  | boolean hkind =>
    obtain rfl := hkind
    rfl
  | dateTime hkind hread =>
    rcases hkind with rfl | rfl <;> exact congrArg (Option.map Value.dateTime) hread
  | guid hkind hread =>
    rcases hkind with rfl | rfl <;> exact congrArg (Option.map Value.guid) hread

/-- A literal has values of the type only at which it is read. -/
theorem Literal.type?_of_resolve {l : Literal} {t : FieldType} {v : Value}
    (h : l.resolve t = some v) : v.type? = some t := by
  cases standsFor_of_resolve h with
  | string | number | boolean | dateTime | guid => rfl

/-- Only finite numbers are literals. -/
theorem Literal.isFinite_of_resolve {l : Literal} {t : FieldType} {x : Number}
    (h : l.resolve t = some (.number x)) : x.isFinite = true := by
  cases standsFor_of_resolve h with
  | number _ _ hfinite => exact hfinite

namespace Literal.Resolves

variable {t : FieldType} {ls : List Literal} {vs : List Value}

theorem length_eq (h : Resolves t ls vs) : vs.length = ls.length := by
  have := congrArg List.length h
  simpa using this.symm

theorem exists_of_mem (h : Resolves t ls vs) {v : Value} (hv : v ∈ vs) :
    ∃ l ∈ ls, l.resolve t = some v := by
  have hmem : some v ∈ ls.map (·.resolve t) := h ▸ List.mem_map_of_mem hv
  exact List.mem_map.1 hmem

theorem type?_of_mem (h : Resolves t ls vs) {v : Value} (hv : v ∈ vs) : v.type? = some t := by
  obtain ⟨l, -, hl⟩ := h.exists_of_mem hv
  exact type?_of_resolve hl

end Literal.Resolves

/-- A single literal of a text field is a text. -/
theorem Literal.Resolves.eq_string {ls : List Literal} {vs : List Value}
    (h : Resolves .string ls vs) (hlen : ls.length = 1) : ∃ s, vs = [.string s] := by
  have hvs : vs.length = 1 := h.length_eq.trans hlen
  obtain ⟨v, rfl⟩ := List.length_eq_one_iff.1 hvs
  have hv : v.type? = some .string := h.type?_of_mem (by simp)
  cases v with
  | string s => exact ⟨s, rfl⟩
  | null | number _ | boolean _ | dateTime _ | guid _ => cases hv

theorem Literal.Resolves.eq_pair {t : FieldType} {ls : List Literal} {vs : List Value}
    (h : Resolves t ls vs) (hlen : ls.length = 2) : ∃ v w, vs = [v, w] := by
  have hvs : vs.length = 2 := h.length_eq.trans hlen
  obtain ⟨v, rest, rfl⟩ := List.exists_cons_of_length_eq_add_one hvs
  obtain ⟨w, rfl⟩ := List.length_eq_one_iff.1 (Nat.succ.inj hvs)
  exact ⟨v, w, rfl⟩

/-- An operator with a fixed number of arguments admits no other number. -/
theorem CallOp.eq_of_admits {op : CallOp} {k n : Nat} (harity : op.arity = (k, some k))
    (h : op.admits n = true) : n = k := by
  simp only [admits, harity, Option.all_some, Bool.and_eq_true, decide_eq_true_eq] at h
  exact Nat.le_antisymm h.2 h.1

/-! ## Validation lets well-typed trees through -/

theorem FieldMap.filterField_ok {name : String} {f : Field α} (h : m.filterField name = .ok f) :
    m.get? name = some f ∧ f.canFilter = true := by
  unfold filterField at h
  split at h
  · cases h
  · rename_i g hg
    split at h
    · rename_i hc
      cases h
      exact ⟨hg, hc⟩
    · cases h

theorem Field.checkOperator_ok {f : Field α} {symbol : String} {c : OperatorClass}
    (h : f.checkOperator symbol c = .ok ()) : c.permits f.type = true := by
  unfold checkOperator at h
  split at h
  · assumption
  · cases h

theorem Field.checkLiteral_ok {f : Field α} {l : Literal} (h : f.checkLiteral l = .ok ()) :
    ∃ v, l.resolve f.type = some v := by
  unfold checkLiteral at h
  split at h
  · rename_i v hv
    exact ⟨v, hv⟩
  · cases h

@[simp] theorem Except.ok_bind {ε β γ : Type} (b : β) (f : β → Except ε γ) :
    (Except.ok b >>= f) = f b := rfl

theorem Except.bind_eq_ok {ε β γ : Type} {x : Except ε β} {f : β → Except ε γ} {c : γ}
    (h : (x >>= f) = .ok c) : ∃ b, x = .ok b ∧ f b = .ok c := by
  cases x with
  | error e => cases h
  | ok b => exact ⟨b, rfl, h⟩

theorem Except.eq_ok_of_isOk {ε : Type} {x : Except ε Unit} (h : x.isOk = true) : x = .ok () := by
  cases x with
  | error e => cases h
  | ok u => rfl

namespace Node

theorem checkArguments_ok {f : Field α} {whole : Node} {args : List Node}
    (h : checkArguments f whole args = .ok ()) :
    ∃ ls vs, args = ls.map literal ∧ Literal.Resolves f.type ls vs := by
  fun_induction checkArguments f whole args with
  | case1 => exact ⟨[], [], rfl, rfl⟩
  | case2 l ns ih =>
    obtain ⟨⟨⟩, hl, hns⟩ := Except.bind_eq_ok h
    obtain ⟨v, hv⟩ := Field.checkLiteral_ok hl
    obtain ⟨ls, vs, rfl, hvs⟩ := ih hns
    refine ⟨l :: ls, v :: vs, rfl, ?_⟩
    have htail : ls.map (·.resolve f.type) = vs.map some := hvs
    simp only [Literal.Resolves, List.map_cons, hv, htail]
  | case3 => cases h

theorem wellTyped_of_checkComparison {whole l r : Node} {c : Comparison} (s : Size)
    (h : checkComparison m whole c l r = .ok ()) : WellTyped m (binary (.compare c) l r s) := by
  unfold checkComparison at h
  split at h
  · split at h
    · obtain ⟨f, hf, h⟩ := Except.bind_eq_ok h
      obtain ⟨⟨⟩, hop, hl⟩ := Except.bind_eq_ok h
      obtain ⟨hfound, hopen⟩ := FieldMap.filterField_ok hf
      obtain ⟨v, hv⟩ := Field.checkLiteral_ok hl
      exact .comparison s ⟨hfound, hopen, Field.checkOperator_ok hop⟩ hv
    · cases h
  · cases h

theorem wellTyped_of_checkCall {whole target : Node} {op : CallOp} {args : List Node} (s : Size)
    (h : checkCall m whole op target args = .ok ()) : WellTyped m (call op target args s) := by
  unfold checkCall at h
  split at h
  · split at h
    · rename_i hcount
      obtain ⟨f, hf, h⟩ := Except.bind_eq_ok h
      obtain ⟨⟨⟩, hop, hargs⟩ := Except.bind_eq_ok h
      obtain ⟨hfound, hopen⟩ := FieldMap.filterField_ok hf
      obtain ⟨ls, vs, rfl, hvs⟩ := checkArguments_ok hargs
      rw [List.length_map] at hcount
      exact .call s ⟨hfound, hopen, Field.checkOperator_ok hop⟩ hcount hvs
    · cases h
  · cases h

theorem wellTyped_of_check {n : Node} (h : n.check m = .ok ()) : WellTyped m n := by
  induction n using clauseInduction with
  | literal l | field name => cases h
  | negation n s ih => exact .negation s (ih h)
  | group n s ih => exact .group s (ih h)
  | and l r s ihl ihr =>
    obtain ⟨⟨⟩, hl, hr⟩ := Except.bind_eq_ok h
    exact .and s (ihl hl) (ihr hr)
  | or l r s ihl ihr =>
    obtain ⟨⟨⟩, hl, hr⟩ := Except.bind_eq_ok h
    exact .or s (ihl hl) (ihr hr)
  | compare c l r s => exact wellTyped_of_checkComparison s h
  | call op t args s => exact wellTyped_of_checkCall s h

/-- What validation lets through is well-typed, whatever the limits. -/
theorem wellTyped_of_validate {limits : FilterLimits} {n : Node}
    (h : n.validate m limits = .ok ()) : WellTyped m n := by
  unfold validate at h
  split at h
  · cases h
  · split at h
    · cases h
    · exact wellTyped_of_check h

/-! ## Binding the clauses of well-typed trees -/

theorem boundField_of_admits {name : String} {c : OperatorClass} {f : Field α}
    (h : m.Admits name c f) : (field name).boundField m = .ok f := by
  simp only [boundField, h.found]

theorem boundValue_literal {f : Field α} {l : Literal} {v : Value}
    (h : l.resolve f.type = some v) : (literal l).boundValue f = .ok v := by
  simp only [boundValue, h]

theorem boundValues_literals {f : Field α} {ls : List Literal} {vs : List Value}
    (h : Literal.Resolves f.type ls vs) : boundValues f (ls.map literal) = .ok vs := by
  induction ls generalizing vs with
  | nil =>
    have hvs : vs = [] := List.length_eq_zero_iff.1 h.length_eq
    rw [hvs]
    rfl
  | cons l ls ih =>
    cases vs with
    | nil => cases h
    | cons v vs =>
      obtain ⟨hl, hls⟩ := List.cons.inj h
      simp only [List.map_cons, boundValues, boundValue_literal hl, ih hls]
      rfl

theorem toPredicate_comparison {name : String} {c : Comparison} {f : Field α} {l : Literal}
    {v : Value} (s : Size) (h : m.Admits name c.operatorClass f) (hv : l.resolve f.type = some v) :
    (binary (.compare c) (field name) (literal l) s).toPredicate m = .ok (.compare f c v) := by
  rw [toPredicate, boundField_of_admits h]
  show ((literal l).boundValue f >>= _) = _
  rw [boundValue_literal hv]
  rfl

theorem toPredicate_call {name : String} {op : CallOp} {f : Field α} {ls : List Literal}
    {vs : List Value} (s : Size) (h : m.Admits name op.operatorClass f)
    (hvs : Literal.Resolves f.type ls vs) :
    (call op (field name) (ls.map literal) s).toPredicate m = callPredicate f op vs := by
  rw [toPredicate, boundField_of_admits h]
  show (boundValues f (ls.map literal) >>= callPredicate f op) = _
  rw [boundValues_literals hvs]
  rfl

/-! ## Parts of a bound tree -/

theorem toPredicate_negation_eq_ok {n : Node} {s : Size} {p : Predicate α}
    (h : (negation n s).toPredicate m = .ok p) : ∃ q, n.toPredicate m = .ok q ∧ p = .not q := by
  obtain ⟨q, hq, h⟩ := Except.bind_eq_ok h
  exact ⟨q, hq, (Except.ok.inj h).symm⟩

theorem toPredicate_and_eq_ok {l r : Node} {s : Size} {p : Predicate α}
    (h : (binary .and l r s).toPredicate m = .ok p) :
    ∃ pl pr, l.toPredicate m = .ok pl ∧ r.toPredicate m = .ok pr ∧ p = .and pl pr := by
  obtain ⟨pl, hl, h⟩ := Except.bind_eq_ok h
  obtain ⟨pr, hr, h⟩ := Except.bind_eq_ok h
  exact ⟨pl, pr, hl, hr, (Except.ok.inj h).symm⟩

theorem toPredicate_or_eq_ok {l r : Node} {s : Size} {p : Predicate α}
    (h : (binary .or l r s).toPredicate m = .ok p) :
    ∃ pl pr, l.toPredicate m = .ok pl ∧ r.toPredicate m = .ok pr ∧ p = .or pl pr := by
  obtain ⟨pl, hl, h⟩ := Except.bind_eq_ok h
  obtain ⟨pr, hr, h⟩ := Except.bind_eq_ok h
  exact ⟨pl, pr, hl, hr, (Except.ok.inj h).symm⟩

end Node

end EntityQuery
