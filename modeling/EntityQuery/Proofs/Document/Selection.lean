import EntityQuery.Filter.BindDocument
import EntityQuery.Proofs.Document.Join
import EntityQuery.Proofs.Document.Lookup
import EntityQuery.Proofs.Document.Pattern
import EntityQuery.Proofs.RoundTrip.Survival

/-!
# Predicates and document filters select the same entities

A valid filter binds to a predicate on entities and to a filter on their documents. Clause by
clause the two give the same verdict on what was stored of a field (`conditionHolds_comparison`,
`conditionHolds_isIn`, `hasPattern_stored`), and joins, negations and groups keep this
(`wellTyped_agrees`). `evaluate_eq_selects` is the statement for whole filters: the verdicts are the
same on an entity whose values documents can hold, and on a leap second that they cannot hold the
filter of the documents has the verdict on the second after it.
-/

namespace EntityQuery

variable {α : Type} {m : FieldMap α}

/-! ## What the literals of a filter stand for -/

namespace Node

/-- The values of literals at the field that a node names. -/
def operandsAt (m : FieldMap α) (target : Node) (arguments : List Node) : List Value :=
  match target with
  | field name =>
    match m.get? name with
    | some f => arguments.filterMap fun
      | literal l => l.resolve f.type
      | _ => none
    | none => []
  | _ => []

/-- The values of all literals of a tree, each at the field of its clause. -/
def operands (m : FieldMap α) : Node → List Value
  | literal _ | field _ => []
  | negation n _ | group n _ => n.operands m
  | binary .and l r _ | binary .or l r _ => l.operands m ++ r.operands m
  | binary (.compare _) l r _ => operandsAt m l [r]
  | call _ t args _ => operandsAt m t args

theorem operandsAt_literals {name : String} {c : OperatorClass} {f : Field α}
    {ls : List Literal} {vs : List Value} (h : m.Admits name c f)
    (hvs : Literal.Resolves f.type ls vs) :
    operandsAt m (field name) (ls.map literal) = vs := by
  have hvs : ls.map (·.resolve f.type) = vs.map some := hvs
  calc operandsAt m (field name) (ls.map literal)
      = ls.filterMap (·.resolve f.type) := by
        simp only [operandsAt, h.found, List.filterMap_map, Function.comp_def]
    _ = (ls.map (·.resolve f.type)).filterMap id := by
        simp only [List.filterMap_map, Function.id_comp]
    _ = vs := by
        rw [hvs, List.filterMap_map, Function.id_comp, List.filterMap_some]

end Node

/-- The same verdict on an entity and on its document. -/
def Predicate.AgreesWith (m : FieldMap α) (p : Predicate α) (d : DocumentFilter) : Prop :=
  ∀ entity, m.Stores entity → p.evaluate entity = d.selects (m.toDocument entity)

/-- A literal is stored without loss if it is no instant of another era. -/
theorem Literal.storable_of_resolve {l : Literal} {t : FieldType} {v : Value}
    (h : l.resolve t = some v) (hera : ∀ i, v = .dateTime i → i.InEra) : v.Storable := by
  refine Value.InRange.storable ?_ (settled_of_resolve h)
  cases v with
  | number x => exact isFinite_of_resolve h
  | dateTime i => exact hera i rfl
  | null | string _ | boolean _ | guid _ => trivial

theorem Literal.isNull_of_resolve {l : Literal} {t : FieldType} {v : Value}
    (h : l.resolve t = some v) : v.isNull = false := by
  have hv := type?_of_resolve h
  cases v with
  | null => cases hv
  | string _ | number _ | boolean _ | dateTime _ | guid _ => rfl

/-! ## Clauses -/

namespace Document

theorem conditionHolds_single {op : String} (h : conditionOperators.contains op = true)
    (actual : Value) (operand : Json) :
    conditionHolds actual (.object [(op, operand)]) = operatorsHold actual [(op, operand)] := by
  have hop : isOperators [(op, operand)] = true := by
    simp only [isOperators, List.isEmpty_cons, Bool.not_false, List.all_cons, h, List.all_nil,
      Bool.and_self]
  simp only [conditionHolds, hop, if_true]

theorem equals_eq {a v : Value} (hv : v.isNull = false) :
    a.equals v = (!a.isNull && a.compare v == some .eq) := by
  cases v with
  | null => cases hv
  | string _ | number _ | boolean _ | dateTime _ | guid _ => cases a <;> rfl

theorem equals_stored {a v : Value} (hv : v.Storable) (hnull : v.isNull = false) :
    a.dropZeroSign.equals (.ofDocument v.toDocument) =
      (!a.isNull && a.compare v == some .eq) := by
  rw [Value.ofDocument_toDocument hv, equals_eq (by rw [Value.isNull_dropZeroSign, hnull]),
    Value.isNull_dropZeroSign, Value.compare_dropZeroSign]

theorem ordered_stored {a v : Value} (hv : v.Storable) (accept : Ordering → Bool) :
    ordered a.dropZeroSign v.toDocument accept = (a.compare v).any accept := by
  rw [ordered, Value.ofDocument_toDocument hv, Value.compare_dropZeroSign]

/-- Nothing is comparable with null. -/
theorem compare_of_isNull {a : Value} (h : a.isNull = true) (v : Value) : a.compare v = none := by
  cases a with
  | null => rfl
  | string _ | number _ | boolean _ | dateTime _ | guid _ => cases h

theorem contains_comparisonKey (c : Comparison) :
    conditionOperators.contains (Node.comparisonKey c) = true := by
  cases c <;> decide

theorem conditionHolds_comparison {a v : Value} (c : Comparison) (hv : v.Storable)
    (hnull : v.isNull = false) :
    conditionHolds a.dropZeroSign (.object [(Node.comparisonKey c, v.toDocument)]) =
      if a.isNull then c.onNull else c.holds (a.compare v) := by
  rw [conditionHolds_single (contains_comparisonKey c)]
  have heq : a.isNull = true → a.compare v = none := fun h => compare_of_isNull h v
  cases c with
  | eq =>
    show (a.dropZeroSign.equals (.ofDocument v.toDocument) && true) = _
    rw [equals_stored hv hnull]
    cases h : a.isNull <;> simp [Comparison.onNull, Comparison.holds]
  | ne =>
    show (!a.dropZeroSign.equals (.ofDocument v.toDocument) && true) = _
    rw [equals_stored hv hnull]
    cases h : a.isNull <;> simp [Comparison.onNull, Comparison.holds, bne]
  | gt =>
    show (ordered a.dropZeroSign v.toDocument (· == .gt) && true) = _
    rw [ordered_stored hv]
    cases h : a.isNull with
    | true => simp [Comparison.onNull, heq h]
    | false => cases a.compare v <;> simp [Comparison.holds]
  | ge =>
    show (ordered a.dropZeroSign v.toDocument (· != .lt) && true) = _
    rw [ordered_stored hv]
    cases h : a.isNull with
    | true => simp [Comparison.onNull, heq h]
    | false => rcases a.compare v with _ | (_ | _ | _) <;> simp [Comparison.holds]
  | lt =>
    show (ordered a.dropZeroSign v.toDocument (· == .lt) && true) = _
    rw [ordered_stored hv]
    cases h : a.isNull with
    | true => simp [Comparison.onNull, heq h]
    | false => cases a.compare v <;> simp [Comparison.holds]
  | le =>
    show (ordered a.dropZeroSign v.toDocument (· != .gt) && true) = _
    rw [ordered_stored hv]
    cases h : a.isNull with
    | true => simp [Comparison.onNull, heq h]
    | false => rcases a.compare v with _ | (_ | _ | _) <;> simp [Comparison.holds]

/-- A range is both of its bounds. -/
theorem conditionHolds_between {a low high : Value} (hlow : low.Storable) (hhigh : high.Storable) :
    conditionHolds a.dropZeroSign
        (.object [("$gte", low.toDocument), ("$lte", high.toDocument)]) =
      ((a.compare low).any (· != .lt) && (a.compare high).any (· != .gt)) := by
  have hop : isOperators [("$gte", low.toDocument), ("$lte", high.toDocument)] = true := by
    rfl
  rw [conditionHolds, if_pos hop]
  show (ordered a.dropZeroSign low.toDocument (· != .lt) &&
    (ordered a.dropZeroSign high.toDocument (· != .gt) && true)) = _
  rw [ordered_stored hlow, ordered_stored hhigh, Bool.and_true]

theorem equalsSome_stored {a : Value} {vs : List Value}
    (hvs : ∀ v ∈ vs, v.Storable ∧ v.isNull = false) :
    equalsSome a.dropZeroSign (.array (vs.map Value.toDocument)) =
      (!a.isNull && vs.any fun v => a.compare v == some .eq) := by
  show ((vs.map Value.toDocument).any fun j => a.dropZeroSign.equals (.ofDocument j)) = _
  induction vs with
  | nil => simp
  | cons v vs ih =>
    obtain ⟨hv, hnull⟩ := hvs v (by simp)
    have hrest := ih fun w hw => hvs w (by simp [hw])
    simp only [List.map_cons, List.any_cons, equals_stored hv hnull, hrest]
    cases a.isNull <;> simp

/-- The verdict of a pattern is that of the test which it stands for. -/
theorem hasPattern_stored (a : Value) {pattern needle : String} {test : TextTest}
    (h : ∀ text, patternFound pattern text = test.holds text needle) :
    hasPattern a.dropZeroSign (.string pattern) =
      match a with
      | .string text => test.holds text needle
      | _ => false := by
  cases a with
  | string text => exact h text
  | null | number _ | boolean _ | dateTime _ | guid _ => rfl

end Document

/-! ## Calls -/

namespace Node

open Document

/-- What a call needs for its values to be stored. -/
def StorableValues (vs : List Value) : Prop := ∀ v ∈ vs, v.Storable ∧ v.isNull = false

/-- A pattern on both sides of `patternCondition` stands for a test. -/
def PatternOf (test : TextTest) (front back : String) : Prop :=
  ∀ needle text, patternFound (front ++ escapePattern needle ++ back) text =
    test.holds text needle

theorem patternOf_contains : PatternOf .contains "" "" := fun needle text => by
  rw [String.empty_append, String.append_empty, patternFound_contains]

theorem patternOf_startsWith : PatternOf .startsWith "\\A" "" := fun needle text => by
  rw [String.append_empty, patternFound_startsWith]

theorem patternOf_endsWith : PatternOf .endsWith "" "\\z" := fun needle text => by
  rw [String.empty_append, patternFound_endsWith]

theorem evaluate_text (f : Field α) (test : TextTest) (needle : String) (negated : Bool)
    (entity : α) :
    (Predicate.text f test needle negated).evaluate entity =
      ((match f.read entity with
        | .string text => test.holds text needle
        | _ => false) != negated) := by
  rw [Predicate.evaluate]
  cases f.read entity <;> simp

theorem conditionHolds_regex {a : Value} {test : TextTest} {front back : String}
    (h : PatternOf test front back) (needle : String) :
    conditionHolds a.dropZeroSign
        (.object [("$regex", .string (front ++ escapePattern needle ++ back))]) =
      match a with
      | .string text => test.holds text needle
      | _ => false := by
  rw [conditionHolds_single (by decide), ← hasPattern_stored a (h needle)]
  exact Bool.and_true _

theorem conditionHolds_not (a : Value) (condition : Json) :
    conditionHolds a (.object [("$not", condition)]) = !conditionHolds a condition := by
  rw [conditionHolds_single (by decide)]
  exact Bool.and_true _

/-- Tests of texts agree with their patterns, plain and under `$not`. -/
theorem textPredicate_agrees (f : Field α) (op : CallOp) {test : TextTest} {front back : String}
    (h : PatternOf test front back) (needle : String) :
    ∃ p q c, textPredicate f op test false [.string needle] = .ok p ∧
      textPredicate f op test true [.string needle] = .ok q ∧
      patternCondition f op front back [.string needle] = .ok c ∧
      ∀ entity, p.evaluate entity = conditionHolds (f.read entity).dropZeroSign c ∧
        q.evaluate entity =
          conditionHolds (f.read entity).dropZeroSign (.object [("$not", c)]) := by
  refine ⟨_, _, _, rfl, rfl, rfl, fun entity => ⟨?_, ?_⟩⟩
  · rw [evaluate_text, conditionHolds_regex h, Bool.bne_false]
  · rw [evaluate_text, conditionHolds_not, conditionHolds_regex h, Bool.bne_true]

theorem evaluate_between (f : Field α) (low high : Value) (entity : α) :
    (Predicate.and (.compare f .ge low) (.compare f .le high)).evaluate entity =
      (((f.read entity).compare low).any (· != .lt) &&
        ((f.read entity).compare high).any (· != .gt)) := by
  simp only [Predicate.evaluate]
  cases h : (f.read entity).isNull with
  | true => simp [Comparison.onNull, compare_of_isNull h]
  | false =>
    rcases (f.read entity).compare low with _ | (_ | _ | _) <;>
      rcases (f.read entity).compare high with _ | (_ | _ | _) <;> simp [Comparison.holds]

/-- A call binds on both sides, with the same verdict on a stored value. -/
theorem callPredicate_agrees {f : Field α} {op : CallOp} {ls : List Literal} {vs : List Value}
    (hop : op.operatorClass.permits f.type = true) (hcount : op.admits ls.length = true)
    (hvs : Literal.Resolves f.type ls vs) (hst : StorableValues vs) :
    ∃ p c, callPredicate f op vs = .ok p ∧ callCondition f op vs = .ok c ∧
      ∀ entity, p.evaluate entity = conditionHolds (f.read entity).dropZeroSign c := by
  have htext : op.operatorClass = .stringOnly → op.arity = (1, some 1) →
      ∃ needle, vs = [.string needle] := by
    intro hclass harity
    rw [hclass] at hop
    have htype : f.type = .string := by simpa [OperatorClass.permits] using hop
    exact Literal.Resolves.eq_string (htype ▸ hvs) (CallOp.eq_of_admits harity hcount)
  cases op with
  | contains =>
    obtain ⟨needle, rfl⟩ := htext rfl rfl
    obtain ⟨p, _, c, hp, -, hc, hagree⟩ :=
      textPredicate_agrees f .contains patternOf_contains needle
    exact ⟨p, c, hp, hc, fun entity => (hagree entity).1⟩
  | notContains =>
    obtain ⟨needle, rfl⟩ := htext rfl rfl
    obtain ⟨_, q, c, -, hq, hc, hagree⟩ :=
      textPredicate_agrees f .notContains patternOf_contains needle
    refine ⟨q, .object [("$not", c)], hq, ?_, fun entity => (hagree entity).2⟩
    simp only [callCondition, hc]
    rfl
  | startsWith =>
    obtain ⟨needle, rfl⟩ := htext rfl rfl
    obtain ⟨p, _, c, hp, -, hc, hagree⟩ :=
      textPredicate_agrees f .startsWith patternOf_startsWith needle
    exact ⟨p, c, hp, hc, fun entity => (hagree entity).1⟩
  | endsWith =>
    obtain ⟨needle, rfl⟩ := htext rfl rfl
    obtain ⟨p, _, c, hp, -, hc, hagree⟩ :=
      textPredicate_agrees f .endsWith patternOf_endsWith needle
    exact ⟨p, c, hp, hc, fun entity => (hagree entity).1⟩
  | isIn =>
    refine ⟨_, _, rfl, rfl, fun entity => ?_⟩
    rw [conditionHolds_single (by decide)]
    show _ = (equalsSome (f.read entity).dropZeroSign (.array (vs.map Value.toDocument)) && true)
    rw [equalsSome_stored hst, Predicate.evaluate]
    cases (f.read entity).isNull <;> simp
  | notIn =>
    refine ⟨_, _, rfl, rfl, fun entity => ?_⟩
    rw [conditionHolds_single (by decide)]
    show _ = (!equalsSome (f.read entity).dropZeroSign (.array (vs.map Value.toDocument)) && true)
    rw [equalsSome_stored hst, Predicate.evaluate]
    cases (f.read entity).isNull <;> simp
  | between =>
    obtain ⟨low, high, rfl⟩ := hvs.eq_pair (CallOp.eq_of_admits rfl hcount)
    refine ⟨_, _, rfl, rfl, fun entity => ?_⟩
    rw [evaluate_between, conditionHolds_between (hst low (by simp)).1 (hst high (by simp)).1]
  | isNull =>
    refine ⟨_, _, rfl, rfl, fun entity => ?_⟩
    rw [conditionHolds_single (by decide), Predicate.evaluate]
    cases f.read entity <;> rfl
  | isNotNull =>
    refine ⟨_, _, rfl, rfl, fun entity => ?_⟩
    rw [conditionHolds_single (by decide), Predicate.evaluate]
    cases f.read entity <;> rfl

/-! ## Whole filters -/

theorem toDocumentFilter_comparison {name : String} {c : Comparison} {f : Field α} {l : Literal}
    {v : Value} (s : Size) (h : m.Admits name c.operatorClass f) (hv : l.resolve f.type = some v) :
    (binary (.compare c) (field name) (literal l) s).toDocumentFilter m =
      .ok (.field f.path (.object [(comparisonKey c, v.toDocument)])) := by
  rw [toDocumentFilter, boundField_of_admits h]
  show ((literal l).boundValue f >>= _) = _
  rw [boundValue_literal hv]
  rfl

theorem toDocumentFilter_call {name : String} {op : CallOp} {f : Field α} {ls : List Literal}
    {vs : List Value} {c : Json} (s : Size) (h : m.Admits name op.operatorClass f)
    (hvs : Literal.Resolves f.type ls vs) (hc : callCondition f op vs = .ok c) :
    (call op (field name) (ls.map literal) s).toDocumentFilter m = .ok (.field f.path c) := by
  rw [toDocumentFilter, boundField_of_admits h]
  show (boundValues f (ls.map literal) >>= fun vs => callCondition f op vs >>= _) = _
  rw [boundValues_literals hvs]
  show (callCondition f op vs >>= _) = _
  rw [hc]
  rfl

/-- A condition on the path of a field is one on what was stored of it. -/
theorem selects_field (hm : m.PlainPaths) {name : String} {c : OperatorClass} {f : Field α}
    (h : m.Admits name c f) {entity : α} (he : m.Stores entity) (condition : Json) :
    (DocumentFilter.field f.path condition).selects (m.toDocument entity) =
      conditionHolds (f.read entity).dropZeroSign condition := by
  have hf := FieldMap.mem_of_get? h.found
  have hpath := hm.notJoin f hf
  simp only [joinOperators, List.mem_cons, List.not_mem_nil, or_false, not_or] at hpath
  rw [DocumentFilter.selects, DocumentFilter.field, filterMatches_path _ hpath,
    valueAt_toDocument hm hf (he f hf)]

/-- A well-typed filter binds on both sides, with the same verdict on entities and documents. -/
theorem wellTyped_agrees (hm : m.PlainPaths) {n : Node} (h : n.WellTyped m)
    (hera : ∀ i, .dateTime i ∈ n.operands m → i.InEra) :
    ∃ p d, n.toPredicate m = .ok p ∧ n.toDocumentFilter m = .ok d ∧ p.AgreesWith m d := by
  induction h with
  | negation s h ih =>
    obtain ⟨p, d, hp, hd, hagree⟩ := ih hera
    refine ⟨.not p, d.negate, by rw [toPredicate, hp]; rfl, by rw [toDocumentFilter, hd]; rfl, ?_⟩
    intro entity he
    rw [Predicate.evaluate, DocumentFilter.selects_negate, hagree entity he]
  | group s h ih => exact ih hera
  | and s hl hr ihl ihr =>
    obtain ⟨p, d, hp, hd, hagree⟩ := ihl fun i hi => hera i (List.mem_append_left _ hi)
    obtain ⟨q, e, hq, he, hagree'⟩ := ihr fun i hi => hera i (List.mem_append_right _ hi)
    refine ⟨.and p q, .join "$and" d e, by rw [toPredicate, hp, hq]; rfl,
      by rw [toDocumentFilter, hd, he]; rfl, ?_⟩
    intro entity hs
    rw [Predicate.evaluate, DocumentFilter.selects_join_and, hagree entity hs, hagree' entity hs]
  | or s hl hr ihl ihr =>
    obtain ⟨p, d, hp, hd, hagree⟩ := ihl fun i hi => hera i (List.mem_append_left _ hi)
    obtain ⟨q, e, hq, he, hagree'⟩ := ihr fun i hi => hera i (List.mem_append_right _ hi)
    refine ⟨.or p q, .join "$or" d e, by rw [toPredicate, hp, hq]; rfl,
      by rw [toDocumentFilter, hd, he]; rfl, ?_⟩
    intro entity hs
    rw [Predicate.evaluate, DocumentFilter.selects_join_or, hagree entity hs, hagree' entity hs]
  | @comparison name c f l v s hf hv =>
    have hres : Literal.Resolves f.type [l] [v] := congrArg (fun o => [o]) hv
    have hops : operands m (binary (.compare c) (field name) (literal l) s) = [v] :=
      operandsAt_literals hf hres
    have hst : v.Storable :=
      Literal.storable_of_resolve hv fun i hi => hera i (by rw [hops, hi]; exact .head _)
    refine ⟨.compare f c v, .field f.path (.object [(comparisonKey c, v.toDocument)]),
      toPredicate_comparison s hf hv, toDocumentFilter_comparison s hf hv, ?_⟩
    intro entity he
    rw [selects_field hm hf he, conditionHolds_comparison c hst (Literal.isNull_of_resolve hv)]
    rfl
  | @call name op f ls vs s hf hcount hvs =>
    have hops : operands m (call op (field name) (ls.map literal) s) = vs :=
      operandsAt_literals hf hvs
    have hst : StorableValues vs := by
      intro v hmem
      obtain ⟨l, -, hl⟩ := hvs.exists_of_mem hmem
      exact ⟨Literal.storable_of_resolve hl fun i hi => hera i (by rw [hops, ← hi]; exact hmem),
        Literal.isNull_of_resolve hl⟩
    obtain ⟨p, c, hp, hc, hagree⟩ := callPredicate_agrees hf.permits hcount hvs hst
    refine ⟨p, .field f.path c, (toPredicate_call s hf hvs).trans hp,
      toDocumentFilter_call s hf hvs hc, ?_⟩
    intro entity he
    rw [selects_field hm hf he, hagree]

/-- A valid filter selects an entity exactly if it selects its document, when all values of the
entity can be held. If some are leap seconds that end no minute, the document is selected exactly if
the filter selects the entity with these settled. -/
theorem evaluate_eq_selects (hm : m.PlainPaths) {limits : FilterLimits} {n : Node}
    (hn : n.validate m limits = .ok ()) (hera : ∀ i, .dateTime i ∈ n.operands m → i.InEra) :
    ∃ p d, n.toPredicate m = .ok p ∧ n.toDocumentFilter m = .ok d ∧
      (∀ entity, (∀ f ∈ m.fields.entries, (f.read entity).Storable) →
        p.evaluate entity = d.selects (m.toDocument entity)) ∧
      ∀ entity settled, m.SettlesTo entity settled →
        p.evaluate settled = d.selects (m.toDocument entity) := by
  obtain ⟨p, d, hp, hd, hagree⟩ := wellTyped_agrees hm (wellTyped_of_validate hn) hera
  refine ⟨p, d, hp, hd, hagree, fun entity settled h => ?_⟩
  rw [h.toDocument_eq]
  exact hagree settled h.stores

/-- `not (netSize > -2.5 or madeAt < 2024-03-01T00:30+01:00) or name not @contains 'a.b'` -/
def partFilter : Node :=
  mkBinary .or
    (mkNot (mkGroup (mkBinary .or
      (mkBinary (.compare .gt) (field "netSize") (literal ⟨"-2.5", .number⟩))
      (mkBinary (.compare .lt) (field "madeAt") (literal ⟨"2024-03-01T00:30+01:00", .dateTime⟩)))))
    (mkCall .notContains (field "name") [literal ⟨"a.b", .string⟩])

theorem validate_partFilter : partFilter.validate partMap {} = .ok () :=
  Except.eq_ok_of_isOk (by decide +kernel)

theorem storable_partFilter : ∀ v ∈ partFilter.operands partMap, v.Storable := by decide +kernel

/-- A size that is a text and a missing day are seen alike by both sides. -/
theorem evaluate_eq_selects_partFilter :
    partMap.PlainPaths ∧ partFilter.validate partMap {} = .ok () ∧
      (∀ i, .dateTime i ∈ partFilter.operands partMap → i.InEra) ∧
      ∃ p d, partFilter.toPredicate partMap = .ok p ∧ partFilter.toDocumentFilter partMap = .ok d ∧
        p.evaluate (.string "xa.b", .string "-3", .null) =
          d.selects (partMap.toDocument (.string "xa.b", .string "-3", .null)) := by
  have hera : ∀ i, .dateTime i ∈ partFilter.operands partMap → i.InEra :=
    fun i hi => (storable_partFilter _ hi).1
  obtain ⟨p, d, hp, hd, h, -⟩ := evaluate_eq_selects partMap_plainPaths validate_partFilter hera
  exact ⟨partMap_plainPaths, validate_partFilter, hera, p, d, hp, hd, h _ (by decide)⟩

/-- A part that was made in a leap second within a minute. -/
def leapPart : EntityQuery.Part := (.string "bolt", .null, .dateTime Value.midMinuteLeap)

/-- `madeAt == 2015-06-30T23:56:05.333333333Z` -/
def leapFilter : Node :=
  mkBinary (.compare .eq) (field "madeAt") (literal ⟨"2015-06-30T23:56:05.333333333Z", .dateTime⟩)

theorem toPredicate_leapFilter :
    leapFilter.toPredicate partMap =
      .ok (.compare partFields[2] .eq (.dateTime Value.midMinuteLeap.settled)) :=
  toPredicate_comparison _ ⟨rfl, rfl, rfl⟩ (by decide)

/-- The second after the leap second is not when the part was made, but its document says so. -/
theorem evaluate_ne_selects_leapPart :
    partMap.PlainPaths ∧ leapFilter.validate partMap {} = .ok () ∧
      (∀ v ∈ leapFilter.operands partMap, v.Storable) ∧
      (∀ f ∈ partMap.fields.entries, (f.read leapPart).InRange) ∧
      ∃ p d, leapFilter.toPredicate partMap = .ok p ∧ leapFilter.toDocumentFilter partMap = .ok d ∧
        p.evaluate leapPart = false ∧ d.selects (partMap.toDocument leapPart) = true := by
  have hvalid : leapFilter.validate partMap {} = .ok () := Except.eq_ok_of_isOk (by decide +kernel)
  have hoperands : ∀ v ∈ leapFilter.operands partMap, v.Storable := by decide +kernel
  have hrange : ∀ f ∈ partMap.fields.entries, (f.read leapPart).InRange := by decide
  obtain ⟨p, d, hp, hd, hagree⟩ := wellTyped_agrees partMap_plainPaths
    (wellTyped_of_validate hvalid) fun i hi => (hoperands _ hi).1
  obtain rfl := Except.ok.inj (toPredicate_leapFilter.symm.trans hp)
  have hsettles : partMap.SettlesTo leapPart
      (.string "bolt", .null, .dateTime Value.midMinuteLeap.settled) := by
    intro f hf
    refine ⟨hrange f hf, ?_⟩
    revert f
    decide
  refine ⟨partMap_plainPaths, hvalid, hoperands, hrange, _, d, hp, hd, by decide, ?_⟩
  rw [hsettles.toDocument_eq, ← hagree _ hsettles.stores]
  decide

end Node

end EntityQuery
