import EntityQuery.Proofs.Filter.Outline
import EntityQuery.Sql.Condition

/-!
# Literals become parameters

The literals of a filter are the parameters of its predicate, from left to right
(`Node.WellTyped.parameters_eq`), and nothing else of the predicate depends on them: trees with one
outline have the same condition (`Node.WellTyped.conditionAfter_eq`).
-/

namespace EntityQuery

variable {α : Type} {m : FieldMap α}

/-! ## The values of placeholders -/

/-- What the placeholder of a literal stands for: its value at the type of the field, or the
pattern of the text that is looked for. -/
def FieldTest.parameter? (m : FieldMap α) (t : FieldTest) (l : Literal) : Option Json :=
  ((m.get? t.name).bind fun f => l.resolve f.type).map fun v =>
    match t.search with
    | some search => .string (Sql.likePattern search l.text)
    | none => v.toJson

def FieldTest.parameters? (m : FieldMap α) (t : FieldTest) : List (Option Json) :=
  t.literals.map (t.parameter? m)

theorem Literal.eq_text_of_resolve {l : Literal} {v : Value} (h : l.resolve .string = some v) :
    v = .string l.text := by
  cases standsFor_of_resolve h with
  | string => rfl

namespace FieldTest

variable {name : String} {f : Field α} {ls : List Literal} {vs : List Value}

theorem parameters?_compared (h : m.get? name = some f) (hvs : Literal.Resolves f.type ls vs) :
    parameters? m ⟨name, none, ls⟩ = (vs.map Value.toJson).map some := by
  have hone : parameter? m ⟨name, none, ls⟩ = fun l => (l.resolve f.type).map Value.toJson := by
    funext l
    rw [parameter?, h]
    rfl
  have hall : (ls.map (·.resolve f.type)).map (Option.map Value.toJson) =
      (vs.map some).map (Option.map Value.toJson) := congrArg _ hvs
  rw [parameters?, hone, List.map_map]
  rw [List.map_map, List.map_map] at hall
  exact hall

theorem parameters?_searched (h : m.get? name = some f) (htype : f.type = .string) {l : Literal}
    {needle : String} (hvs : Literal.Resolves .string [l] [.string needle]) (search : TextTest) :
    parameters? m ⟨name, some search, [l]⟩ =
      [some (.string (Sql.likePattern search needle))] := by
  have hl : l.resolve .string = some (.string needle) := (List.cons.inj hvs).1
  have hneedle : needle = l.text := Value.string.inj (Literal.eq_text_of_resolve hl)
  rw [parameters?, List.map_singleton, parameter?, h, Option.bind_some, htype, hl, hneedle]
  rfl

end FieldTest

namespace Node

/-- The parameters of a call are what the placeholders of its literals stand for. -/
theorem callPredicate_parameters {name : String} {op : CallOp} {f : Field α} {ls : List Literal}
    {vs : List Value} (h : m.Admits name op.operatorClass f) (hcount : op.admits ls.length = true)
    (hvs : Literal.Resolves f.type ls vs) {p : Predicate α} (hp : callPredicate f op vs = .ok p) :
    p.parameters.map some = FieldTest.parameters? m ⟨name, op.search?, ls⟩ := by
  have htext : op.operatorClass = .stringOnly → op.arity = (1, some 1) →
      ∃ l needle, ls = [l] ∧ vs = [.string needle] ∧
        ∀ search, FieldTest.parameters? m ⟨name, some search, ls⟩ =
          [some (.string (Sql.likePattern search needle))] := by
    intro hclass harity
    have hpermits := h.permits
    rw [hclass] at hpermits
    have htype : f.type = .string := by simpa [OperatorClass.permits] using hpermits
    have hone : ls.length = 1 := CallOp.eq_of_admits harity hcount
    rw [htype] at hvs
    obtain ⟨l, rfl⟩ := List.length_eq_one_iff.1 hone
    obtain ⟨needle, rfl⟩ := Literal.Resolves.eq_string hvs hone
    exact ⟨l, needle, rfl, rfl, FieldTest.parameters?_searched h.found htype hvs⟩
  cases op with
  | contains | notContains | startsWith | endsWith =>
    obtain ⟨l, needle, rfl, rfl, hpattern⟩ := htext rfl rfl
    cases hp
    exact (hpattern _).symm
  | isIn | notIn =>
    cases hp
    exact (FieldTest.parameters?_compared h.found hvs).symm
  | between =>
    obtain ⟨low, high, rfl⟩ := hvs.eq_pair (CallOp.eq_of_admits rfl hcount)
    cases hp
    exact (FieldTest.parameters?_compared h.found hvs).symm
  | isNull | isNotNull =>
    obtain rfl := List.length_eq_zero_iff.1 (CallOp.eq_of_admits rfl hcount)
    cases hp
    rfl

/-- The parameters of a filter are what the placeholders of its literals stand for, from left to
right. -/
theorem WellTyped.parameters_eq {n : Node} (h : n.WellTyped m) {p : Predicate α}
    (hp : n.toPredicate m = .ok p) :
    p.parameters.map some = n.tests.flatMap (FieldTest.parameters? m) := by
  induction h generalizing p with
  | negation s h ih =>
    obtain ⟨q, hq, rfl⟩ := toPredicate_negation_eq_ok hp
    rw [Predicate.parameters, ih hq, tests]
  | group s h ih => exact ih hp
  | and s hl hr ihl ihr | or s hl hr ihl ihr =>
    obtain ⟨q, hq, heq⟩ := Except.bind_eq_ok hp
    obtain ⟨q', hq', heq⟩ := Except.bind_eq_ok heq
    cases heq
    rw [Predicate.parameters, List.map_append, ihl hq, ihr hq', tests, List.flatMap_append]
  | @comparison name c f l v s hf hv =>
    rw [toPredicate_comparison s hf hv] at hp
    cases hp
    have hvs : Literal.Resolves f.type [l] [v] := congrArg (fun o => [o]) hv
    rw [tests, text, List.flatMap_singleton]
    exact (FieldTest.parameters?_compared hf.found hvs).symm
  | @call name op f ls vs s hf hcount hvs =>
    rw [toPredicate_call s hf hvs] at hp
    rw [tests_call, List.flatMap_singleton]
    exact callPredicate_parameters hf hcount hvs hp

/-! ## Conditions and outlines -/

theorem textPredicate_eq_ok {f : Field α} {op : CallOp} {test : TextTest} {negated : Bool}
    {vs : List Value} {p : Predicate α} (h : textPredicate f op test negated vs = .ok p) :
    ∃ needle, p = .text f test needle negated := by
  unfold textPredicate at h
  split at h
  · exact ⟨_, (Except.ok.inj h).symm⟩
  · cases h

theorem between_eq_ok {f : Field α} {vs : List Value} {p : Predicate α}
    (h : callPredicate f .between vs = .ok p) :
    ∃ low high, p = .and (.compare f .ge low) (.compare f .le high) := by
  rcases vs with _ | ⟨low, _ | ⟨high, _ | ⟨third, rest⟩⟩⟩
  · cases h
  · cases h
  · exact ⟨low, high, (Except.ok.inj h).symm⟩
  · cases h

/-- The condition of a call depends on no more of the literals than their number. -/
theorem conditionAfter_callPredicate {f : Field α} {op : CallOp} {vs vs' : List Value}
    {p p' : Predicate α} (hlen : vs.length = vs'.length) (hp : callPredicate f op vs = .ok p)
    (hp' : callPredicate f op vs' = .ok p') (k : Nat) :
    p.conditionAfter k = p'.conditionAfter k := by
  cases op with
  | contains | notContains | startsWith | endsWith =>
    obtain ⟨needle, rfl⟩ := textPredicate_eq_ok hp
    obtain ⟨needle', rfl⟩ := textPredicate_eq_ok hp'
    rfl
  | isIn | notIn =>
    cases hp
    cases hp'
    rw [Predicate.conditionAfter, Predicate.conditionAfter, hlen]
  | between =>
    obtain ⟨low, high, rfl⟩ := between_eq_ok hp
    obtain ⟨low', high', rfl⟩ := between_eq_ok hp'
    rfl
  | isNull | isNotNull =>
    cases hp
    cases hp'
    rfl

/-- Trees with one outline have the same conditions. -/
theorem WellTyped.conditionAfter_eq {n n' : Node} (h : n.WellTyped m) (h' : n'.WellTyped m)
    (heq : n.outline m = n'.outline m) {p p' : Predicate α} (hp : n.toPredicate m = .ok p)
    (hp' : n'.toPredicate m = .ok p') (k : Nat) : p.conditionAfter k = p'.conditionAfter k := by
  induction h generalizing n' p p' k with
  | negation s h ih =>
    cases h' with
    | negation s' h' =>
      obtain ⟨q, hq, rfl⟩ := toPredicate_negation_eq_ok hp
      obtain ⟨q', hq', rfl⟩ := toPredicate_negation_eq_ok hp'
      have hinner := (Node.negation.inj heq).1
      rw [Predicate.conditionAfter, Predicate.conditionAfter, ih h' hinner hq hq']
    | group | and | or | comparison | call => cases heq
  | group s h ih =>
    cases h' with
    | group s' h' => exact ih h' (Node.group.inj heq).1 hp hp' k
    | negation | and | or | comparison | call => cases heq
  | and s hl hr ihl ihr =>
    cases h' with
    | and s' hl' hr' =>
      obtain ⟨-, hleft, hright, -⟩ := Node.binary.inj heq
      obtain ⟨p, q, hpl, hpr, rfl⟩ := toPredicate_and_eq_ok hp
      obtain ⟨p', q', hpl', hpr', rfl⟩ := toPredicate_and_eq_ok hp'
      simp only [Predicate.conditionAfter, ihl hl' hleft hpl hpl', ihr hr' hright hpr hpr']
    | negation | group | or | comparison | call => cases heq
  | or s hl hr ihl ihr =>
    cases h' with
    | or s' hl' hr' =>
      obtain ⟨-, hleft, hright, -⟩ := Node.binary.inj heq
      obtain ⟨p, q, hpl, hpr, rfl⟩ := toPredicate_or_eq_ok hp
      obtain ⟨p', q', hpl', hpr', rfl⟩ := toPredicate_or_eq_ok hp'
      simp only [Predicate.conditionAfter, ihl hl' hleft hpl hpl', ihr hr' hright hpr hpr']
    | negation | group | and | comparison | call => cases heq
  | @comparison name c f l v s hf hv =>
    cases h' with
    | @comparison name' c' f' l' v' s' hf' hv' =>
      obtain ⟨hop, hfield, -, -⟩ := Node.binary.inj heq
      obtain rfl := eq_of_outline_field hf.found hf'.found hfield
      rw [toPredicate_comparison s hf hv] at hp
      rw [toPredicate_comparison s' hf' hv'] at hp'
      cases hop
      cases hp
      cases hp'
      rfl
    | negation | group | and | or | call => cases heq
  | @call name op f ls vs s hf hcount hvs =>
    cases h' with
    | @call name' op' f' ls' vs' s' hf' hcount' hvs' =>
      obtain ⟨rfl, hfield, hargs, -⟩ := Node.call.inj heq
      obtain rfl := eq_of_outline_field hf.found hf'.found hfield
      rw [toPredicate_call s hf hvs] at hp
      rw [toPredicate_call s' hf' hvs'] at hp'
      have hlen : ls.length = ls'.length := by
        have hlens := congrArg List.length hargs
        rw [length_outlineAll, length_outlineAll, List.length_map, List.length_map] at hlens
        exact hlens
      rw [← hvs.length_eq, ← hvs'.length_eq] at hlen
      exact conditionAfter_callPredicate hlen hp hp' k
    | negation | group | and | or | comparison => cases heq

end Node

end EntityQuery
