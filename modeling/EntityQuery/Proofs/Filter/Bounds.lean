import EntityQuery.Proofs.Filter.Recursion
import EntityQuery.Proofs.Query.Checking
import EntityQuery.Proofs.RoundTrip.Filter
import EntityQuery.Proofs.Sql.Parameters

/-!
# What the limits bound

In a tree from the builders every node carries its own measure, and the tree is hardly higher than
its cost. So a limit of the cost bounds how deep the functions on trees call themselves, and how
many tests a predicate has: each operator node adds two at most, for a range. The literals in a
list cost nothing, but each takes a character of the text, so the limit of the length bounds the
parameters (`Node.bounds`).
-/

namespace EntityQuery

variable {α : Type} {m : FieldMap α}

namespace Node

/-! ## Tests -/

theorem leafCount_callPredicate {f : Field α} {op : CallOp} {vs : List Value} {p : Predicate α}
    (h : callPredicate f op vs = .ok p) : p.leafCount ≤ 2 := by
  cases op with
  | contains | notContains | startsWith | endsWith =>
    obtain ⟨needle, rfl⟩ := textPredicate_eq_ok h
    exact Nat.le_succ 1
  | between =>
    obtain ⟨low, high, rfl⟩ := between_eq_ok h
    exact Nat.le_refl 2
  | isIn | notIn | isNull | isNotNull =>
    cases h
    exact Nat.le_succ 1

/-- Binding makes at most two tests of an operator node, whatever the tree. -/
theorem leafCount_le {n : Node} {p : Predicate α} (h : n.toPredicate m = .ok p) :
    p.leafCount ≤ 2 * n.operatorCount := by
  induction n using clauseInduction generalizing p with
  | literal l | field name => cases h
  | group n s ih =>
    have hinner := ih h
    rw [operatorCount]
    omega
  | negation n s ih =>
    obtain ⟨q, hq, h⟩ := Except.bind_eq_ok h
    cases h
    have hinner := ih hq
    rw [operatorCount, Predicate.leafCount]
    omega
  | and l r s ihl ihr | or l r s ihl ihr =>
    obtain ⟨q, hq, h⟩ := Except.bind_eq_ok h
    obtain ⟨q', hq', h⟩ := Except.bind_eq_ok h
    cases h
    have hleft := ihl hq
    have hright := ihr hq'
    rw [operatorCount, Predicate.leafCount]
    omega
  | compare c l r s =>
    obtain ⟨f, -, h⟩ := Except.bind_eq_ok h
    obtain ⟨v, -, h⟩ := Except.bind_eq_ok h
    cases h
    have hone : (Predicate.compare f c v).leafCount = 1 := rfl
    rw [operatorCount, hone]
    omega
  | call op t args s =>
    obtain ⟨f, -, h⟩ := Except.bind_eq_ok h
    obtain ⟨vs, -, h⟩ := Except.bind_eq_ok h
    have htwo := leafCount_callPredicate h
    rw [operatorCount]
    omega

/-! ## Parameters -/

theorem length_parameters?_le (ts : List FieldTest) :
    (ts.flatMap (FieldTest.parameters? m)).length ≤ (ts.flatMap FieldTest.words).length := by
  induction ts with
  | nil => exact Nat.le_refl 0
  | cons t ts ih =>
    simp only [List.flatMap_cons, List.length_append, FieldTest.parameters?, FieldTest.words,
      List.length_map, List.length_cons]
    omega

/-- A filter that is read has no more parameters than its text has characters. -/
theorem WellTyped.length_parameters_le {s : String} {n : Node} (hparse : Node.parse s = .ok n)
    (h : n.WellTyped m) {p : Predicate α} (hp : n.toPredicate m = .ok p) :
    p.parameters.length ≤ s.length :=
  calc p.parameters.length
      = (n.tests.flatMap (FieldTest.parameters? m)).length := by
        rw [← h.parameters_eq hp, List.length_map]
    _ ≤ (n.tests.flatMap FieldTest.words).length := length_parameters?_le _
    _ = ((Cut.ofText s).lexemes.filterMap Clause.literal?).length := by
        rw [literals_of_parse hparse]
    _ ≤ (Cut.ofText s).lexemes.length := List.length_filterMap_le _ _
    _ ≤ s.toList.length := Cut.length_lexemes_le 0 _
    _ = s.length := String.length_toList

/-! ## All bounds -/

/-- The sizes of a tree from the builders, and so of one that was read, are true at each of its
nodes and bound its height. For a tree whose text is accepted the limits bound how deep writing,
validating and binding call themselves, and the tests and parameters that come of it. -/
theorem bounds (m : FieldMap α) :
    (∀ n : Node, n.Built →
      (∀ k : Node, k.OccursIn n → k.depth = k.nesting + 1 ∧ k.cost = k.operatorCount) ∧
      n.height ≤ n.cost + 1) ∧
    (∀ (s : String) (n : Node), Node.parse s = .ok n → n.Built) ∧
    ∀ (limits : FilterLimits) (s : String) (n : Node), checkFilter m limits s = .ok n →
      (CallsWithin textBody text (limits.maxNodes + 1) n ∧
        CallsWithin (checkBody m) (check m) (limits.maxNodes + 1) n ∧
        CallsWithin (predicateBody m) (toPredicate m) (limits.maxNodes + 1) n ∧
        CallsWithin (documentBody m) (toDocumentFilter m) (limits.maxNodes + 1) n) ∧
      ∃ p, n.toPredicate m = .ok p ∧
        p.leafCount ≤ 2 * limits.maxNodes ∧ p.parameters.length ≤ limits.maxLength := by
  refine ⟨fun n h => ⟨fun k hk => ?_, h.height_le⟩, fun s n => built_of_parse,
    fun limits s n h => ?_⟩
  · rw [depth, cost, (h.occursIn hk).size_eq]
    exact ⟨rfl, rfl⟩
  · obtain ⟨hparse, hvalid⟩ := checkFilter_eq_ok h
    obtain ⟨-, hcost, htyped⟩ := validate_eq_ok.1 hvalid
    have hbuilt := built_of_parse hparse
    have hcount : n.operatorCount ≤ limits.maxNodes := (hbuilt.limitsBind limits hvalid).1
    have hheight : n.height ≤ limits.maxNodes + 1 :=
      Nat.le_trans hbuilt.height_le (Nat.succ_le_succ hcost)
    obtain ⟨⟨p, hp⟩, -⟩ := binds_of_validate hvalid
    refine ⟨⟨recurses_text.callsWithin hheight, (recurses_check m).callsWithin hheight,
      (recurses_toPredicate m).callsWithin hheight,
      (recurses_toDocumentFilter m).callsWithin hheight⟩, p, hp, ?_, ?_⟩
    · exact Nat.le_trans (leafCount_le hp) (Nat.mul_le_mul_left 2 hcount)
    · exact Nat.le_trans (htyped.length_parameters_le hparse hp) (length_le_of_checkFilter h)

/-- A range, the operator that makes two tests. -/
def rangeText : String := "netSize between (1, 2)"

def rangeTree : Node :=
  .mkCall .between (.field "netSize") [.literal ⟨"1", .number⟩, .literal ⟨"2", .number⟩]

theorem parse_rangeText : Node.parse rangeText = .ok rangeTree := by
  have hname : Spells "netSize".toList [⟨.name, "netSize".toList⟩] := .whole (by decide)
  have hword : Spells "between".toList [⟨.betweenWord, "between".toList⟩] := .whole (by decide)
  have hlow : Spells "1".toList [⟨.number, "1".toList⟩] := .whole (by decide)
  have hhigh : Spells "2".toList [⟨.number, "2".toList⟩] := .whole (by decide)
  have hclause := Grammar.ClauseTree.between "netSize".toList "between".toList "(".toList
    ",".toList ")".toList (.number "1".toList) (.number "2".toList)
  exact Node.parse_of_spells (hname.spaced (hword.spaced (hlow.comma hhigh).closed.opened))
    (.conjunction (.negation (.primary (.clause hclause))))

/-- With one operator node allowed, the height and the tests of the range reach their bounds. -/
theorem bounds_rangeText :
    checkFilter partMap { maxNodes := 1 } rangeText = .ok rangeTree ∧ rangeTree.Built ∧
      CallsWithin (checkBody partMap) (check partMap) 2 rangeTree ∧ rangeTree.height = 2 ∧
      ∃ p, rangeTree.toPredicate partMap = .ok p ∧ p.leafCount ≤ 2 ∧ p.leafCount = 2 ∧
        p.parameters.length ≤ 4096 ∧ p.parameters.length = 2 := by
  have hvalid : rangeTree.validate partMap { maxNodes := 1 } = .ok () :=
    Except.eq_ok_of_isOk (by decide +kernel)
  have hcheck : checkFilter partMap { maxNodes := 1 } rangeText = .ok rangeTree :=
    checkFilter_of_parse (by decide) parse_rangeText hvalid
  have hmade : (rangeTree.toPredicate partMap).toOption.map
      (fun p => (p.leafCount, p.parameters.length)) = some (2, 2) := by
    decide +kernel
  obtain ⟨-, hbuilt, hbounds⟩ := bounds partMap
  obtain ⟨⟨-, hcalls, -⟩, p, hp, hleaves, hparameters⟩ := hbounds _ _ _ hcheck
  rw [hp] at hmade
  obtain ⟨htwo, hvalues⟩ := Prod.mk.inj (Option.some.inj hmade)
  exact ⟨hcheck, hbuilt _ _ parse_rangeText, hcalls, rfl, p, hp, hleaves, htwo, hparameters,
    hvalues⟩

end Node

end EntityQuery
