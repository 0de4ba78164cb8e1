import EntityQuery.Proofs.Document.Equality
import EntityQuery.Proofs.Filter.Rewriting

/-!
# Derived operators

Some tests are there for convenience. A negative one says the opposite of a positive one, `in` asks
for one of several values and `between` for both of two bounds. `Node.Expansion` writes them out and
adds the laws of `not`; a filter that is rewritten so, in as many places as one likes, says the same
of every entity and of every document, and `not` in front of a filter says the opposite of it
(`Node.derived_operators`). Nulls, missing members and values of other kinds are no exception.
-/

namespace EntityQuery

variable {α : Type} {m : FieldMap α}

/-- The test of which a negative test says the opposite. -/
def CallOp.positive? : CallOp → Option CallOp
  | notContains => some contains
  | notIn => some isIn
  | isNotNull => some isNull
  | contains | startsWith | endsWith | isIn | between | isNull => none

namespace Node

/-- The tests for each of some literals, in their order and joined by `or` in any way. -/
inductive AnyOf (test : Literal → Node) : List Literal → Node → Prop where
  | one (l : Literal) : AnyOf test [l] (test l)
  | or {ls ls' : List Literal} {n n' : Node} (s : Size) (h : AnyOf test ls n)
      (h' : AnyOf test ls' n') : AnyOf test (ls ++ ls') (binary .or n n' s)

def equal (f : Node) (l : Literal) : Node := mkBinary (.compare .eq) f (literal l)

/-- What derived tests and negations stand for. -/
inductive Expansion : Node → Node → Prop where
  | notEqual (f l : Node) (s s₁ s₂ : Size) :
      Expansion (binary (.compare .ne) f l s) (negation (binary (.compare .eq) f l s₁) s₂)
  | negative {op op' : CallOp} (h : op.positive? = some op') (f : Node) (ls : List Node)
      (s s₁ s₂ : Size) : Expansion (call op f ls s) (negation (call op' f ls s₁) s₂)
  | isIn {f n : Node} {ls : List Literal} (s : Size) (h : AnyOf (equal f) ls n) :
      Expansion (call .isIn f (ls.map literal) s) n
  | between (f low high : Node) (s s₁ s₂ s₃ : Size) :
      Expansion (call .between f [low, high] s)
        (binary .and (binary (.compare .ge) f low s₁) (binary (.compare .le) f high s₂) s₃)
  | notAnd (l r : Node) (s₁ s₂ s₃ s₄ s₅ : Size) :
      Expansion (negation (binary .and l r s₁) s₂)
        (binary .or (negation l s₃) (negation r s₄) s₅)
  | notOr (l r : Node) (s₁ s₂ s₃ s₄ s₅ : Size) :
      Expansion (negation (binary .or l r s₁) s₂)
        (binary .and (negation l s₃) (negation r s₄) s₅)
  | notNot (n : Node) (s s' : Size) : Expansion (negation (negation n s) s') n
  | ungroup (n : Node) (s : Size) : Expansion (group n s) n

end Node

/-! ## Verdicts of clauses -/

/-- What a clause says: a predicate of entities, and a condition on the value at a path. -/
def Verdict.clause (p : Predicate α) (path : String) (condition : Json) : Verdict α :=
  ⟨fun entity => p.evaluate entity,
    fun doc => Document.conditionHolds (Document.valueAt doc path) condition⟩

namespace Document

theorem conditionHolds_ne (a : Value) (j : Json) :
    conditionHolds a (.object [("$ne", j)]) = !conditionHolds a (.object [("$eq", j)]) := by
  rw [conditionHolds_eq, conditionHolds_single (by decide)]
  exact Bool.and_true _

theorem conditionHolds_nin (a : Value) (j : Json) :
    conditionHolds a (.object [("$nin", j)]) = !conditionHolds a (.object [("$in", j)]) := by
  rw [conditionHolds_in, conditionHolds_single (by decide)]
  exact Bool.and_true _

/-- Membership in an array is equality with one of its items. -/
theorem conditionHolds_array (a : Value) (js : List Json) :
    conditionHolds a (.object [("$in", .array js)]) =
      js.any fun j => conditionHolds a (.object [("$eq", j)]) := by
  simp only [conditionHolds_in, conditionHolds_eq]
  rfl

theorem conditionHolds_range (a : Value) (j k : Json) :
    conditionHolds a (.object [("$gte", j), ("$lte", k)]) =
      (conditionHolds a (.object [("$gte", j)]) && conditionHolds a (.object [("$lte", k)])) := by
  have hop : isOperators [("$gte", j), ("$lte", k)] = true := by rfl
  rw [conditionHolds, if_pos hop, conditionHolds_single (by decide),
    conditionHolds_single (by decide), operatorsHold_cons]

end Document

namespace Predicate

theorem evaluate_ne (f : Field α) (v : Value) (entity : α) :
    (compare f .ne v).evaluate entity = !(compare f .eq v).evaluate entity := by
  simp only [evaluate]
  cases (f.read entity).isNull <;> rfl

theorem evaluate_isIn (f : Field α) (vs : List Value) (entity : α) :
    (isIn f vs false).evaluate entity = vs.any fun v => (compare f .eq v).evaluate entity := by
  simp only [evaluate]
  cases (f.read entity).isNull with
  | true => simp [Comparison.onNull]
  | false => simp [Comparison.holds]

theorem evaluate_notIn (f : Field α) (vs : List Value) (entity : α) :
    (isIn f vs true).evaluate entity = !(isIn f vs false).evaluate entity := by
  simp only [evaluate]
  cases (f.read entity).isNull <;> simp

theorem evaluate_isNotNull (f : Field α) (entity : α) :
    (isNull f true).evaluate entity = !(isNull f false).evaluate entity := by
  simp only [evaluate, Bool.bne_true, Bool.bne_false]

end Predicate

namespace Verdict

theorem clause_ne (f : Field α) (v : Value) :
    clause (.compare f .ne v) f.path (.object [(Node.comparisonKey .ne, v.toDocument)]) =
      (clause (.compare f .eq v) f.path (.object [(Node.comparisonKey .eq, v.toDocument)])).not :=
  Verdict.ext (funext fun entity => Predicate.evaluate_ne f v entity)
    (funext fun _ => Document.conditionHolds_ne _ _)

theorem clause_range (f : Field α) (low high : Value) :
    clause (.and (.compare f .ge low) (.compare f .le high)) f.path
        (.object [("$gte", low.toDocument), ("$lte", high.toDocument)]) =
      (clause (.compare f .ge low) f.path
        (.object [(Node.comparisonKey .ge, low.toDocument)])).and
      (clause (.compare f .le high) f.path
        (.object [(Node.comparisonKey .le, high.toDocument)])) :=
  Verdict.ext rfl (funext fun _ => Document.conditionHolds_range _ _ _)

end Verdict

/-! ## Clauses and their verdicts -/

namespace Literal.Resolves

variable {t : FieldType} {ls : List Literal} {vs : List Value}

theorem exists_resolve (h : Resolves t ls vs) {l : Literal} (hl : l ∈ ls) :
    ∃ v, l.resolve t = some v := by
  have hmem : l.resolve t ∈ vs.map some := h ▸ List.mem_map_of_mem hl
  obtain ⟨v, -, hv⟩ := List.mem_map.1 hmem
  exact ⟨v, hv.symm⟩

/-- Some value of the literals has a property if some literal has a value with it. -/
theorem any_eq (h : Resolves t ls vs) (holds : Value → Bool) :
    (ls.any fun l => (l.resolve t).any holds) = vs.any holds := by
  calc (ls.any fun l => (l.resolve t).any holds)
      = (ls.map (·.resolve t)).any (·.any holds) := by rw [List.any_map]; rfl
    _ = (vs.map some).any (·.any holds) := congrArg (List.any · _) h
    _ = vs.any holds := by rw [List.any_map]; rfl

end Literal.Resolves

namespace Node

open Document

section

variable (hm : ∀ f ∈ m.fields.entries, f.path ∉ joinOperators)

include hm

theorem means_clause {n : Node} {p : Predicate α} {f : Field α} {c : Json}
    (hf : f ∈ m.fields.entries) (hp : n.toPredicate m = .ok p)
    (hd : n.toDocumentFilter m = .ok (.field f.path c)) :
    n.Means m (.clause p f.path c) := by
  refine ⟨p, .field f.path c, hp, hd, fun _ => rfl, fun doc => ?_⟩
  rw [DocumentFilter.selects, DocumentFilter.field,
    filterMatches_path doc (ne_of_not_mem_joinOperators (hm f hf))]
  rfl

theorem means_comparison {name : String} {c : Comparison} {f : Field α} {l : Literal} {v : Value}
    (h : m.Admits name c.operatorClass f) (hv : l.resolve f.type = some v) (s : Size) :
    (binary (.compare c) (field name) (literal l) s).Means m
      (.clause (.compare f c v) f.path (.object [(comparisonKey c, v.toDocument)])) :=
  means_clause hm (FieldMap.mem_of_get? h.found) (toPredicate_comparison s h hv)
    (toDocumentFilter_comparison s h hv)

theorem means_call {name : String} {op : CallOp} {f : Field α} {ls : List Literal}
    {vs : List Value} {p : Predicate α} {c : Json} (h : m.Admits name op.operatorClass f)
    (hvs : Literal.Resolves f.type ls vs) (hp : callPredicate f op vs = .ok p)
    (hc : callCondition f op vs = .ok c) (s : Size) :
    (call op (field name) (ls.map literal) s).Means m (.clause p f.path c) :=
  means_clause hm (FieldMap.mem_of_get? h.found) ((toPredicate_call s h hvs).trans hp)
    (toDocumentFilter_call s h hvs hc)

end

theorem wellTyped_comparison {c : Comparison} {t r : Node} {s : Size}
    (h : (binary (.compare c) t r s).WellTyped m) :
    ∃ name f l v, t = field name ∧ r = literal l ∧ m.Admits name c.operatorClass f ∧
      l.resolve f.type = some v := by
  cases h with
  | comparison s hf hv => exact ⟨_, _, _, _, rfl, rfl, hf, hv⟩

theorem wellTyped_call {op : CallOp} {t : Node} {args : List Node} {s : Size}
    (h : (call op t args s).WellTyped m) :
    ∃ name f ls vs, t = field name ∧ args = ls.map literal ∧ m.Admits name op.operatorClass f ∧
      op.admits ls.length = true ∧ Literal.Resolves f.type ls vs := by
  cases h with
  | call s hf hcount hvs => exact ⟨_, _, _, _, rfl, rfl, hf, hcount, hvs⟩

/-! ## Tests that say the opposite -/

theorem class_of_positive? {op op' : CallOp} (h : op.positive? = some op') :
    op'.operatorClass = op.operatorClass ∧ op'.admits = op.admits := by
  cases op <;> cases h <;> exact ⟨rfl, rfl⟩

/-- A negative call and its positive form both bind, and they say the opposite. -/
theorem exists_opposite {op op' : CallOp} (hop : op.positive? = some op') {f : Field α}
    {ls : List Literal} {vs : List Value} (hpermits : op.operatorClass.permits f.type = true)
    (hcount : op.admits ls.length = true) (hvs : Literal.Resolves f.type ls vs) :
    ∃ p p' c c', callPredicate f op vs = .ok p ∧ callCondition f op vs = .ok c ∧
      callPredicate f op' vs = .ok p' ∧ callCondition f op' vs = .ok c' ∧
      Verdict.clause p f.path c = (Verdict.clause p' f.path c').not := by
  cases op with
  | notContains =>
    cases hop
    -- Only a text can be searched, and its one argument is the needle.
    have htype : f.type = .string := by
      simpa [CallOp.operatorClass, OperatorClass.permits] using hpermits
    obtain ⟨needle, rfl⟩ :=
      Literal.Resolves.eq_string (htype ▸ hvs) (CallOp.eq_of_admits rfl hcount)
    refine ⟨_, _, _, _, rfl, rfl, rfl, rfl, Verdict.ext (funext fun entity => ?_)
      (funext fun doc => conditionHolds_not _ _)⟩
    show (Predicate.text f .contains needle true).evaluate entity =
      !(Predicate.text f .contains needle false).evaluate entity
    rw [evaluate_text, evaluate_text, Bool.bne_true, Bool.bne_false]
  | notIn =>
    cases hop
    exact ⟨_, _, _, _, rfl, rfl, rfl, rfl, Verdict.ext
      (funext fun entity => Predicate.evaluate_notIn f vs entity)
      (funext fun doc => conditionHolds_nin _ _)⟩
  | isNotNull =>
    cases hop
    exact ⟨_, _, _, _, rfl, rfl, rfl, rfl, Verdict.ext
      (funext fun entity => Predicate.evaluate_isNotNull f entity)
      (funext fun doc => conditionHolds_ne _ _)⟩
  | contains | startsWith | endsWith | isIn | between | isNull => cases hop

/-! ## Membership -/

/-- A disjunction says that one of its parts holds. -/
theorem AnyOf.means {test : Literal → Node} {ls : List Literal} {n : Node}
    (h : AnyOf test ls n) {v : Literal → Verdict α} (hv : ∀ l ∈ ls, (test l).Means m (v l)) :
    n.Means m ⟨fun entity => ls.any fun l => (v l).onEntity entity,
      fun doc => ls.any fun l => (v l).onDocument doc⟩ := by
  induction h with
  | one l =>
    simp only [List.any_cons, List.any_nil, Bool.or_false]
    exact hv l (.head _)
  | or s _ _ ih ih' =>
    simp only [List.any_append]
    exact (ih fun l hl => hv l (List.mem_append_left _ hl)).or
      (ih' fun l hl => hv l (List.mem_append_right _ hl)) s

theorem AnyOf.wellTyped {test : Literal → Node} {ls : List Literal} {n : Node}
    (h : AnyOf test ls n) (hls : ∀ l ∈ ls, (test l).WellTyped m) : n.WellTyped m := by
  induction h with
  | one l => exact hls l (.head _)
  | or s _ _ ih ih' =>
    exact .or s (ih fun l hl => hls l (List.mem_append_left _ hl))
      (ih' fun l hl => hls l (List.mem_append_right _ hl))

/-- What the test for the value of a literal says, if it has one. -/
def equalVerdict (f : Field α) (l : Literal) : Verdict α :=
  ⟨fun entity => (l.resolve f.type).any fun v => (Predicate.compare f .eq v).evaluate entity,
    fun doc => (l.resolve f.type).any fun v =>
      conditionHolds (valueAt doc f.path) (.object [("$eq", v.toDocument)])⟩

/-! ## Expansions are sound -/

section

variable (hm : ∀ f ∈ m.fields.entries, f.path ∉ joinOperators)

include hm

theorem means_equal {name : String} {f : Field α} {l : Literal} {v : Value}
    (h : m.Admits name (Comparison.eq).operatorClass f) (hv : l.resolve f.type = some v) :
    (equal (field name) l).Means m (equalVerdict f l) := by
  have hverdict : equalVerdict f l = .clause (.compare f .eq v) f.path
      (.object [(comparisonKey .eq, v.toDocument)]) := by
    rw [equalVerdict, hv]
    rfl
  rw [hverdict]
  exact means_comparison hm h hv _

theorem means_anyOf {name : String} {f : Field α} {ls : List Literal} {vs : List Value} {n : Node}
    (h : m.Admits name (Comparison.eq).operatorClass f) (hvs : Literal.Resolves f.type ls vs)
    (hn : AnyOf (equal (field name)) ls n) :
    n.Means m (.clause (.isIn f vs false) f.path
      (.object [("$in", .array (vs.map Value.toDocument))])) := by
  have hmeans := hn.means fun l hl =>
    let ⟨_, hv⟩ := hvs.exists_resolve hl
    means_equal hm h hv
  have hverdict : Verdict.clause (.isIn f vs false) f.path
      (.object [("$in", .array (vs.map Value.toDocument))]) =
      ⟨fun entity => ls.any fun l => (equalVerdict f l).onEntity entity,
        fun doc => ls.any fun l => (equalVerdict f l).onDocument doc⟩ := by
    refine Verdict.ext (funext fun entity => ?_) (funext fun doc => ?_)
    · exact (Predicate.evaluate_isIn f vs entity).trans (hvs.any_eq _).symm
    · show conditionHolds _ _ = ls.any fun l => (l.resolve f.type).any _
      rw [conditionHolds_array, List.any_map, hvs.any_eq]
      rfl
  rw [hverdict]
  exact hmeans

theorem sound_expansion : Sound m Expansion := by
  intro n n' h hn
  cases h with
  | notEqual t r s s₁ s₂ =>
    obtain ⟨name, f, l, v, rfl, rfl, hf, hv⟩ := wellTyped_comparison hn
    have hf' : m.Admits name (Comparison.eq).operatorClass f := hf
    refine ⟨.negation _ (.comparison _ hf' hv), _, means_comparison hm hf hv s, ?_⟩
    rw [Verdict.clause_ne]
    exact (means_comparison hm hf' hv s₁).negation s₂
  | negative hop t args s s₁ s₂ =>
    obtain ⟨name, f, ls, vs, rfl, rfl, hf, hcount, hvs⟩ := wellTyped_call hn
    obtain ⟨hclass, hadmits⟩ := class_of_positive? hop
    obtain ⟨p, p', c, c', hp, hc, hp', hc', hopposite⟩ :=
      exists_opposite hop hf.permits hcount hvs
    rw [← hclass] at hf
    rw [← hadmits] at hcount
    refine ⟨.negation _ (.call _ hf hcount hvs), _,
      means_call hm (hclass ▸ hf) hvs hp hc s, ?_⟩
    rw [hopposite]
    exact (means_call hm hf hvs hp' hc' s₁).negation s₂
  | @isIn t n' ls s hany =>
    obtain ⟨name, f, ls', vs, rfl, hargs, hf, -, hvs⟩ := wellTyped_call hn
    -- The rule and the typing both list the literals of the clause.
    obtain rfl : ls = ls' := List.map_inj_right (fun _ _ h => by injection h) |>.1 hargs
    refine ⟨hany.wellTyped fun l hl => ?_, _, means_call hm hf hvs rfl rfl s,
      means_anyOf hm hf hvs hany⟩
    obtain ⟨v, hv⟩ := hvs.exists_resolve hl
    exact .comparison _ hf hv
  | between t low high s s₁ s₂ s₃ =>
    obtain ⟨name, f, ls, vs, rfl, hargs, hf, -, hvs⟩ := wellTyped_call hn
    obtain ⟨l, rest, rfl, rfl, hrest⟩ := List.map_eq_cons_iff.1 hargs.symm
    obtain ⟨l', last, rfl, rfl, hlast⟩ := List.map_eq_cons_iff.1 hrest
    obtain rfl := List.map_eq_nil_iff.1 hlast
    obtain ⟨v, w, rfl⟩ := hvs.eq_pair rfl
    obtain ⟨hv, hw⟩ : l.resolve f.type = some v ∧ l'.resolve f.type = some w := by
      simpa [Literal.Resolves] using hvs
    refine ⟨.and _ (.comparison _ hf hv) (.comparison _ hf hw), _,
      means_call hm hf hvs rfl rfl s, ?_⟩
    rw [Verdict.clause_range]
    exact (means_comparison hm hf hv s₁).and (means_comparison hm hf hw s₂) s₃
  | notAnd l r s₁ s₂ s₃ s₄ s₅ =>
    cases hn with
    | negation _ hn =>
      obtain ⟨hl, hr⟩ := (wellTyped_connective .and).1 hn
      obtain ⟨v, hv⟩ := exists_means hl
      obtain ⟨w, hw⟩ := exists_means hr
      refine ⟨.or _ (.negation _ hl) (.negation _ hr), _, (hv.and hw s₁).negation s₂, ?_⟩
      rw [Verdict.not_and]
      exact (hv.negation s₃).or (hw.negation s₄) s₅
  | notOr l r s₁ s₂ s₃ s₄ s₅ =>
    cases hn with
    | negation _ hn =>
      obtain ⟨hl, hr⟩ := (wellTyped_connective .or).1 hn
      obtain ⟨v, hv⟩ := exists_means hl
      obtain ⟨w, hw⟩ := exists_means hr
      refine ⟨.and _ (.negation _ hl) (.negation _ hr), _, (hv.or hw s₁).negation s₂, ?_⟩
      rw [Verdict.not_or]
      exact (hv.negation s₃).and (hw.negation s₄) s₅
  | notNot n s s' =>
    cases hn with
    | negation _ hn =>
      cases hn with
      | negation _ hn =>
        obtain ⟨v, hv⟩ := exists_means hn
        refine ⟨hn, v, ?_, hv⟩
        rw [← v.not_not]
        exact (hv.negation s).negation s'
  | ungroup n s =>
    cases hn with
    | group _ hn =>
      obtain ⟨v, hv⟩ := exists_means hn
      exact ⟨hn, v, hv.group s, hv⟩

/-- Expansions, at any places of a valid filter and in any number, do not change what it says in
either form, and `not` in front of it says the opposite. -/
theorem derived_operators {limits : FilterLimits} {n n' : Node}
    (hn : n.validate m limits = .ok ())
    (h : Relation.ReflTransGen (InContext Expansion) n n') :
    ∃ v, n.Means m v ∧ n'.Means m v ∧ ∀ s, (negation n s).Means m v.not := by
  obtain ⟨-, v, hv, hv'⟩ := alike_of_steps (sound_expansion hm) h (wellTyped_of_validate hn)
  exact ⟨v, hv, hv', hv.negation⟩

end

/-- `not (name not in ('a', 'b') or netSize between (1, 2))` -/
def outlierFilter : Node :=
  mkNot (mkGroup (mkBinary .or
    (mkCall .notIn (field "name") [literal ⟨"a", .string⟩, literal ⟨"b", .string⟩])
    (mkCall .between (field "netSize") [literal ⟨"1", .number⟩, literal ⟨"2", .number⟩])))

/-- `(name == 'a' or name == 'b') and (not netSize >= 1 or not netSize <= 2)` -/
def plainOutlierFilter : Node :=
  mkBinary .and
    (mkBinary .or (equal (field "name") ⟨"a", .string⟩) (equal (field "name") ⟨"b", .string⟩))
    (mkBinary .or
      (mkNot (mkBinary (.compare .ge) (field "netSize") (literal ⟨"1", .number⟩)))
      (mkNot (mkBinary (.compare .le) (field "netSize") (literal ⟨"2", .number⟩))))

theorem steps_outlierFilter :
    Relation.ReflTransGen (InContext Expansion) outlierFilter plainOutlierFilter := by
  have hany : AnyOf (equal (field "name")) [⟨"a", .string⟩, ⟨"b", .string⟩]
      (mkBinary .or (equal (field "name") ⟨"a", .string⟩) (equal (field "name") ⟨"b", .string⟩)) :=
    .or _ (.one ⟨"a", .string⟩) (.one ⟨"b", .string⟩)
  refine .head (.negation _ .leaf (.here (.ungroup _ _))) ?_
  refine .head (.here (.notOr _ _ _ _ .leaf .leaf .leaf)) ?_
  refine .head (.left _ .leaf .and (.negation _ .leaf (.here (.negative rfl _ _ _ .leaf .leaf)))) ?_
  refine .head (.left _ .leaf .and (.here (.notNot _ _ _))) ?_
  refine .head (.left _ .leaf .and (.here (.isIn _ hany))) ?_
  refine .head (.right _ .leaf .and (.negation _ .leaf
    (.here (.between _ _ _ _ ⟨1, 1⟩ ⟨1, 1⟩ .leaf)))) ?_
  exact .single (.right _ _ .and (.here (.notAnd _ _ _ _ _ _ _)))

theorem derived_operators_outlierFilter :
    (∀ f ∈ partMap.fields.entries, f.path ∉ joinOperators) ∧
      outlierFilter.validate partMap {} = .ok () ∧
      Relation.ReflTransGen (InContext Expansion) outlierFilter plainOutlierFilter ∧
      ∃ v, outlierFilter.Means partMap v ∧ plainOutlierFilter.Means partMap v ∧
        ∀ s, (negation outlierFilter s).Means partMap v.not := by
  have hvalid : outlierFilter.validate partMap {} = .ok () :=
    Except.eq_ok_of_isOk (by decide +kernel)
  exact ⟨partMap_plainPaths.notJoin, hvalid, steps_outlierFilter,
    derived_operators partMap_plainPaths.notJoin hvalid steps_outlierFilter⟩

end Node

end EntityQuery
