import EntityQuery.Proofs.Document.Lookup
import EntityQuery.Proofs.Filter.Typing

/-!
# The fault of an invalid filter

A tree is its clauses, from left to right, with connectives, negations and groups around them
(`Node.clauses`), and it is well-typed when they are. `Node.Fault` says which error is due to a
clause that is not: its shape is looked at before its field, the field before the operator, and the
operator before the literals. `validate_iff` says that validation accepts exactly the well-typed
trees within the limits and that it answers any other with the excess of its sizes or, if they are
within the limits, with the fault of the leftmost clause that is not well-typed.
-/

namespace EntityQuery

variable {α : Type} {m : FieldMap α}

/-! ## What can be wrong with a clause -/

/-- Why a filter may not put an operator to what a name stands for. -/
inductive FieldMap.Refuses (m : FieldMap α) (name symbol : String) (c : OperatorClass) :
    ValidationError → Prop where
  | unknown (h : m.get? name = none) : Refuses m name symbol c (.unknownField name)
  | closed {f : Field α} (h : m.get? name = some f) (hclosed : f.canFilter = false) :
      Refuses m name symbol c (.notFilterable f.name)
  | notAllowed {f : Field α} (h : m.get? name = some f) (hopen : f.canFilter = true)
      (htype : c.permits f.type = false) :
      Refuses m name symbol c (.operatorNotAllowed f.name symbol f.type)

namespace Node

/-- The fault of the first argument that is not a literal with a value at the type of a field. -/
inductive ArgumentFault (f : Field α) (whole : Node) : List Node → ValidationError → Prop where
  | mismatch {l : Literal} {rest : List Node} (h : l.resolve f.type = none) :
      ArgumentFault f whole (literal l :: rest) (.literalMismatch f.name l.display f.type)
  | notLiteral {a : Node} {rest : List Node} (h : ∀ l, a ≠ literal l) :
      ArgumentFault f whole (a :: rest) (whole.malformed .argumentNotLiteral)
  | later {l : Literal} {v : Value} {rest : List Node} {e : ValidationError}
      (hl : l.resolve f.type = some v) (h : ArgumentFault f whole rest e) :
      ArgumentFault f whole (literal l :: rest) e

/-- The error that is due to a clause. -/
inductive Fault (m : FieldMap α) : Node → ValidationError → Prop where
  | literal (l : Literal) : Fault m (literal l) ((literal l).malformed .notBoolean)
  | field (name : String) : Fault m (field name) ((field name).malformed .notBoolean)
  | leftNotField {c : Comparison} {l r : Node} {s : Size} (h : ∀ name, l ≠ .field name) :
      Fault m (binary (.compare c) l r s) ((binary (.compare c) l r s).malformed .leftNotField)
  | rightNotLiteral {c : Comparison} {name : String} {r : Node} {s : Size}
      (h : ∀ v, r ≠ .literal v) :
      Fault m (binary (.compare c) (.field name) r s)
        ((binary (.compare c) (.field name) r s).malformed .rightNotLiteral)
  | comparison {c : Comparison} {name : String} {v : Literal} {s : Size} {e : ValidationError}
      (h : m.Refuses name c.symbol c.operatorClass e) :
      Fault m (binary (.compare c) (.field name) (.literal v) s) e
  | operand {c : Comparison} {name : String} {f : Field α} {v : Literal} {s : Size}
      (hf : m.Admits name c.operatorClass f) (h : v.resolve f.type = none) :
      Fault m (binary (.compare c) (.field name) (.literal v) s)
        (.literalMismatch f.name v.display f.type)
  | targetNotField {op : CallOp} {t : Node} {args : List Node} {s : Size}
      (h : ∀ name, t ≠ .field name) :
      Fault m (call op t args s) ((call op t args s).malformed .targetNotField)
  | argumentCount {op : CallOp} {name : String} {args : List Node} {s : Size}
      (h : op.admits args.length = false) :
      Fault m (call op (.field name) args s)
        ((call op (.field name) args s).malformed (.argumentCount op args.length))
  | call {op : CallOp} {name : String} {args : List Node} {s : Size} {e : ValidationError}
      (hcount : op.admits args.length = true) (h : m.Refuses name op.symbol op.operatorClass e) :
      Fault m (call op (.field name) args s) e
  | argument {op : CallOp} {name : String} {f : Field α} {args : List Node} {s : Size}
      {e : ValidationError} (hcount : op.admits args.length = true)
      (hf : m.Admits name op.operatorClass f)
      (h : ArgumentFault f (call op (.field name) args s) args e) :
      Fault m (call op (.field name) args s) e

end Node

/-! ## Fields -/

namespace FieldMap

theorem admits_or_refuses (m : FieldMap α) (name symbol : String) (c : OperatorClass) :
    (∃ f, m.Admits name c f) ∨ ∃ e, m.Refuses name symbol c e := by
  cases hget : m.get? name with
  | none => exact .inr ⟨_, .unknown hget⟩
  | some f =>
    cases hopen : f.canFilter with
    | false => exact .inr ⟨_, .closed hget hopen⟩
    | true =>
      cases htype : c.permits f.type with
      | false => exact .inr ⟨_, .notAllowed hget hopen htype⟩
      | true => exact .inl ⟨f, hget, hopen, htype⟩

/-- A check goes on with a field that may be used. -/
theorem check_of_admits {name symbol : String} {c : OperatorClass} {f : Field α}
    (h : m.Admits name c f) (k : Field α → Except ValidationError Unit) :
    (do let f ← m.filterField name; f.checkOperator symbol c; k f) = k f := by
  have hfield : m.filterField name = .ok f := by
    simp only [filterField, h.found, h.canFilter, if_true]
  have hop : f.checkOperator symbol c = .ok () := if_pos h.permits
  rw [hfield, Except.ok_bind, hop, Except.ok_bind]

/-- A check ends at a field that may not be used. -/
theorem check_of_refuses {name symbol : String} {c : OperatorClass} {e : ValidationError}
    (h : m.Refuses name symbol c e) (k : Field α → Except ValidationError Unit) :
    (do let f ← m.filterField name; f.checkOperator symbol c; k f) = .error e := by
  cases h with
  | unknown h =>
    simp only [filterField, h]
    rfl
  | closed h hclosed =>
    simp only [filterField, h, hclosed, Bool.false_eq_true, if_false]
    rfl
  | @notAllowed f h hopen htype =>
    have hop : f.checkOperator symbol c = .error (.operatorNotAllowed f.name symbol f.type) :=
      if_neg (by rw [htype]; exact Bool.false_ne_true)
    simp only [filterField, h, hopen, if_true, Except.ok_bind, hop]
    rfl

end FieldMap

/-! ## Arguments -/

namespace Field

theorem checkLiteral_of_resolve {f : Field α} {l : Literal} {v : Value}
    (h : l.resolve f.type = some v) : f.checkLiteral l = .ok () := by
  rw [checkLiteral, h]

theorem checkLiteral_of_none {f : Field α} {l : Literal} (h : l.resolve f.type = none) :
    f.checkLiteral l = .error (.literalMismatch f.name l.display f.type) := by
  rw [checkLiteral, h]

end Field

namespace Node

theorem resolves_or_fault (f : Field α) (whole : Node) (args : List Node) :
    (∃ ls vs, args = ls.map literal ∧ Literal.Resolves f.type ls vs) ∨
      ∃ e, ArgumentFault f whole args e := by
  induction args with
  | nil => exact .inl ⟨[], [], rfl, rfl⟩
  | cons a args ih =>
    cases a with
    | literal l =>
      cases hl : l.resolve f.type with
      | none => exact .inr ⟨_, .mismatch hl⟩
      | some v =>
        rcases ih with ⟨ls, vs, rfl, hvs⟩ | ⟨e, he⟩
        · refine .inl ⟨l :: ls, v :: vs, rfl, ?_⟩
          have htail : ls.map (·.resolve f.type) = vs.map some := hvs
          simp only [Literal.Resolves, List.map_cons, hl, htail]
        · exact .inr ⟨e, .later hl he⟩
    | _ => exact .inr ⟨_, .notLiteral (by rintro _ ⟨⟩)⟩

theorem checkArguments_literals {f : Field α} {ls : List Literal} {vs : List Value}
    (h : Literal.Resolves f.type ls vs) (whole : Node) :
    checkArguments f whole (ls.map literal) = .ok () := by
  induction ls generalizing vs with
  | nil => rfl
  | cons l ls ih =>
    cases vs with
    | nil => cases h
    | cons v vs =>
      obtain ⟨hl, hls⟩ := List.cons.inj h
      rw [List.map_cons, checkArguments, Field.checkLiteral_of_resolve hl, Except.ok_bind, ih hls]

theorem checkArguments_of_fault {f : Field α} {whole : Node} {args : List Node}
    {e : ValidationError} (h : ArgumentFault f whole args e) :
    checkArguments f whole args = .error e := by
  induction h with
  | mismatch h =>
    rw [checkArguments, Field.checkLiteral_of_none h]
    rfl
  | @notLiteral a rest h =>
    cases a with
    | literal l => exact absurd rfl (h l)
    | _ => rfl
  | later hl _ ih => rw [checkArguments, Field.checkLiteral_of_resolve hl, Except.ok_bind, ih]

/-! ## Clauses -/

/-- Is this a tree without parts that are filters? -/
def isClause : Node → Bool
  | negation _ _ | group _ _ | binary .and _ _ _ | binary .or _ _ _ => false
  | _ => true

/-- The clauses of a tree from left to right. -/
def clauses : Node → List Node
  | negation n _ | group n _ => n.clauses
  | binary .and l r _ | binary .or l r _ => l.clauses ++ r.clauses
  | n => [n]

theorem isClause_of_mem_clauses {n c : Node} (h : c ∈ n.clauses) : c.isClause = true := by
  fun_induction clauses n with
  | case1 n s ih | case2 n s ih => exact ih h
  | case3 l r s ihl ihr | case4 l r s ihl ihr => exact (List.mem_append.1 h).elim ihl ihr
  | case5 n hnegation hgroup hand hor =>
    obtain rfl := List.mem_singleton.1 h
    rw [isClause] <;> assumption

/-- A clause either is well-typed or has a fault. -/
theorem wellTyped_or_fault (m : FieldMap α) {n : Node} (h : n.isClause = true) :
    n.WellTyped m ∨ ∃ e, n.Fault m e := by
  cases n with
  | literal l => exact .inr ⟨_, .literal l⟩
  | field name => exact .inr ⟨_, .field name⟩
  | negation n s => cases h
  | group n s => cases h
  | binary op l r s =>
    cases op with
    | and => cases h
    | or => cases h
    | compare c =>
      cases l with
      | field name =>
        cases r with
        | literal v =>
          rcases m.admits_or_refuses name c.symbol c.operatorClass with ⟨f, hf⟩ | ⟨e, he⟩
          · cases hv : v.resolve f.type with
            | none => exact .inr ⟨_, .operand hf hv⟩
            | some x => exact .inl (.comparison s hf hv)
          · exact .inr ⟨e, .comparison he⟩
        | _ => exact .inr ⟨_, .rightNotLiteral (by rintro _ ⟨⟩)⟩
      | _ => exact .inr ⟨_, .leftNotField (by rintro _ ⟨⟩)⟩
  | call op t args s =>
    cases t with
    | field name =>
      cases hcount : op.admits args.length with
      | false => exact .inr ⟨_, .argumentCount hcount⟩
      | true =>
        rcases m.admits_or_refuses name op.symbol op.operatorClass with ⟨f, hf⟩ | ⟨e, he⟩
        · rcases resolves_or_fault f (call op (field name) args s) args with
            ⟨ls, vs, rfl, hvs⟩ | ⟨e, he⟩
          · rw [List.length_map] at hcount
            exact .inl (.call s hf hcount hvs)
          · exact .inr ⟨e, .argument hcount hf he⟩
        · exact .inr ⟨e, .call hcount he⟩
    | _ => exact .inr ⟨_, .targetNotField (by rintro _ ⟨⟩)⟩

/-- The fault of a clause is what checking it reports. -/
theorem check_of_fault {n : Node} {e : ValidationError} (h : n.Fault m e) :
    n.check m = .error e := by
  cases h with
  | literal l => rfl
  | field name => rfl
  | @leftNotField c l r s h =>
    rw [check, checkComparison]
    exact h
  | @rightNotLiteral c name r s h =>
    rw [check, checkComparison]
    exact h
  | comparison h => exact FieldMap.check_of_refuses h _
  | operand hf h =>
    exact (FieldMap.check_of_admits hf _).trans (Field.checkLiteral_of_none h)
  | @targetNotField op t args s h =>
    rw [check, checkCall]
    exact h
  | argumentCount h => exact if_neg (by rw [h]; exact Bool.false_ne_true)
  | call hcount h => exact (if_pos hcount).trans (FieldMap.check_of_refuses h _)
  | argument hcount hf h =>
    exact (if_pos hcount).trans
      ((FieldMap.check_of_admits hf _).trans (checkArguments_of_fault h))

/-! ## Trees -/

theorem check_of_wellTyped {n : Node} (h : n.WellTyped m) : n.check m = .ok () := by
  induction h with
  | negation s _ ih => exact ih
  | group s _ ih => exact ih
  | and s _ _ ihl ihr | or s _ _ ihl ihr => rw [check, ihl, Except.ok_bind, ihr]
  | comparison s hf hv =>
    exact (FieldMap.check_of_admits hf _).trans (Field.checkLiteral_of_resolve hv)
  | call s hf hcount hvs =>
    rw [← List.length_map (f := literal)] at hcount
    exact (if_pos hcount).trans
      ((FieldMap.check_of_admits hf _).trans (checkArguments_literals hvs _))

theorem not_wellTyped_of_fault {n : Node} {e : ValidationError} (h : n.Fault m e) :
    ¬ n.WellTyped m := by
  intro hn
  have hcheck := (check_of_wellTyped hn).symm.trans (check_of_fault h)
  cases hcheck

/-- A tree is checked clause by clause, up to the first fault. -/
theorem check_eq_forM (m : FieldMap α) (n : Node) :
    n.check m = forM n.clauses (·.check m) := by
  fun_induction clauses n with
  | case1 n s ih | case2 n s ih => rw [check, ih]
  | case3 l r s ihl ihr | case4 l r s ihl ihr =>
    rw [check, List.forM_append, ihl, ihr]
  | case5 n hnegation hgroup hand hor =>
    rw [List.forM_cons, List.forM_nil]
    cases n.check m <;> rfl

theorem wellTyped_iff_check {n : Node} : n.WellTyped m ↔ n.check m = .ok () :=
  ⟨check_of_wellTyped, wellTyped_of_check⟩

end Node

theorem forM_eq_ok {β ε : Type} {f : β → Except ε Unit} {xs : List β} :
    forM xs f = .ok () ↔ ∀ x ∈ xs, f x = .ok () := by
  induction xs with
  | nil => exact ⟨fun _ => List.forall_mem_nil _, fun _ => rfl⟩
  | cons x xs ih =>
    rw [List.forM_cons, List.forall_mem_cons, ← ih]
    cases f x with
    | error e => exact ⟨fun h => (nomatch h), fun h => (nomatch h.1)⟩
    | ok u => exact ⟨fun h => ⟨rfl, h⟩, fun h => h.2⟩

theorem forM_eq_error {β ε : Type} {f : β → Except ε Unit} {xs : List β} {e : ε} :
    forM xs f = .error e ↔
      ∃ before x after, xs = before ++ x :: after ∧ (∀ y ∈ before, f y = .ok ()) ∧
        f x = .error e := by
  induction xs with
  | nil =>
    constructor
    · intro h
      cases h
    · rintro ⟨before, x, after, hxs, -⟩
      cases before <;> cases hxs
  | cons y ys ih =>
    rw [List.forM_cons]
    constructor
    · intro h
      cases hy : f y with
      | error e' =>
        rw [hy] at h
        cases h
        exact ⟨[], y, ys, rfl, List.forall_mem_nil _, hy⟩
      | ok u =>
        rw [hy, Except.ok_bind] at h
        obtain ⟨before, x, after, rfl, hbefore, hx⟩ := ih.1 h
        exact ⟨y :: before, x, after, rfl, List.forall_mem_cons.2 ⟨hy, hbefore⟩, hx⟩
    · rintro ⟨before, x, after, hxs, hbefore, hx⟩
      cases before with
      | nil =>
        obtain ⟨rfl, rfl⟩ := List.cons.inj hxs
        rw [hx]
        rfl
      | cons z before =>
        obtain ⟨rfl, rfl⟩ := List.cons.inj hxs
        obtain ⟨hy, hbefore⟩ := List.forall_mem_cons.1 hbefore
        rw [hy, Except.ok_bind]
        exact ih.2 ⟨before, x, after, rfl, hbefore, hx⟩

namespace Node

/-- What checking reports is the fault of the leftmost clause that is not well-typed. -/
theorem check_eq_error_iff {n : Node} {e : ValidationError} :
    n.check m = .error e ↔
      ∃ before c after, n.clauses = before ++ c :: after ∧ (∀ b ∈ before, b.WellTyped m) ∧
        c.Fault m e := by
  rw [check_eq_forM, forM_eq_error]
  refine exists_congr fun before => exists_congr fun c => exists_congr fun after =>
    and_congr_right fun hclauses => and_congr ?_ ⟨fun h => ?_, check_of_fault⟩
  · exact forall_congr' fun b => imp_congr_right fun _ => wellTyped_iff_check.symm
  · have hc : c ∈ n.clauses := hclauses ▸ by simp
    rcases wellTyped_or_fault m (isClause_of_mem_clauses hc) with hc | ⟨e', he'⟩
    · rw [check_of_wellTyped hc] at h
      cases h
    · rw [check_of_fault he'] at h
      cases h
      exact he'

theorem validate_of_deep {limits : FilterLimits} {n : Node} (h : limits.maxDepth < n.depth) :
    n.validate m limits = .error (.depthExceeded n.depth limits.maxDepth) := if_pos h

theorem validate_of_costly {limits : FilterLimits} {n : Node} (hdepth : n.depth ≤ limits.maxDepth)
    (h : limits.maxNodes < n.cost) :
    n.validate m limits = .error (.tooManyNodes n.cost limits.maxNodes) := by
  rw [validate, if_neg (Nat.not_lt.2 hdepth), if_pos h]

theorem validate_of_within {limits : FilterLimits} {n : Node} (hdepth : n.depth ≤ limits.maxDepth)
    (hcost : n.cost ≤ limits.maxNodes) : n.validate m limits = n.check m := by
  rw [validate, if_neg (Nat.not_lt.2 hdepth), if_neg (Nat.not_lt.2 hcost)]

theorem validate_eq_ok {limits : FilterLimits} {n : Node} :
    n.validate m limits = .ok () ↔
      n.depth ≤ limits.maxDepth ∧ n.cost ≤ limits.maxNodes ∧ n.WellTyped m := by
  rw [wellTyped_iff_check]
  by_cases hdepth : n.depth ≤ limits.maxDepth
  · by_cases hcost : n.cost ≤ limits.maxNodes
    · rw [validate_of_within hdepth hcost]
      exact ⟨fun h => ⟨hdepth, hcost, h⟩, fun h => h.2.2⟩
    · rw [validate_of_costly hdepth (Nat.lt_of_not_le hcost)]
      refine ⟨fun h => ?_, fun h => absurd h.2.1 hcost⟩
      cases h
  · rw [validate_of_deep (Nat.lt_of_not_le hdepth)]
    refine ⟨fun h => ?_, fun h => absurd h.1 hdepth⟩
    cases h

/-- Which sizes and clauses a tree is rejected for. -/
theorem validate_eq_error {limits : FilterLimits} {n : Node} {e : ValidationError} :
    n.validate m limits = .error e ↔
      limits.maxDepth < n.depth ∧ e = .depthExceeded n.depth limits.maxDepth ∨
      n.depth ≤ limits.maxDepth ∧ limits.maxNodes < n.cost ∧
        e = .tooManyNodes n.cost limits.maxNodes ∨
      n.depth ≤ limits.maxDepth ∧ n.cost ≤ limits.maxNodes ∧ n.check m = .error e := by
  by_cases hdepth : n.depth ≤ limits.maxDepth
  · by_cases hcost : n.cost ≤ limits.maxNodes
    · rw [validate_of_within hdepth hcost]
      refine ⟨fun h => .inr (.inr ⟨hdepth, hcost, h⟩), ?_⟩
      rintro (⟨hdeep, -⟩ | ⟨-, hcostly, -⟩ | ⟨-, -, h⟩)
      · exact absurd hdepth (Nat.not_le.2 hdeep)
      · exact absurd hcost (Nat.not_le.2 hcostly)
      · exact h
    · have hcostly := Nat.lt_of_not_le hcost
      rw [validate_of_costly hdepth hcostly, Except.error.injEq]
      refine ⟨fun h => .inr (.inl ⟨hdepth, hcostly, h.symm⟩), ?_⟩
      rintro (⟨hdeep, -⟩ | ⟨-, -, h⟩ | ⟨-, hcost', -⟩)
      · exact absurd hdepth (Nat.not_le.2 hdeep)
      · exact h.symm
      · exact absurd hcost' hcost
  · have hdeep := Nat.lt_of_not_le hdepth
    rw [validate_of_deep hdeep, Except.error.injEq]
    refine ⟨fun h => .inl ⟨hdeep, h.symm⟩, ?_⟩
    rintro (⟨-, h⟩ | ⟨hdepth', -⟩ | ⟨hdepth', -⟩)
    · exact h.symm
    · exact absurd hdepth' hdepth
    · exact absurd hdepth' hdepth

theorem wellTyped_iff_clauses {n : Node} :
    n.WellTyped m ↔ ∀ c ∈ n.clauses, c.WellTyped m := by
  simp only [wellTyped_iff_check]
  rw [check_eq_forM, forM_eq_ok]

/-- Validation accepts exactly the trees whose sizes are within the limits and whose clauses are all
well-typed. Otherwise it answers with the depth if that is too large, else with the cost if that
is, else with the fault of the leftmost clause that is not well-typed, which this clause has by
itself as well. -/
theorem validate_iff (m : FieldMap α) (limits : FilterLimits) (n : Node) :
    (n.validate m limits = .ok () ↔
      n.depth ≤ limits.maxDepth ∧ n.cost ≤ limits.maxNodes ∧ n.WellTyped m) ∧
      (n.WellTyped m ↔ ∀ c ∈ n.clauses, c.WellTyped m) ∧
      ∀ e, n.validate m limits = .error e ↔
        limits.maxDepth < n.depth ∧ e = .depthExceeded n.depth limits.maxDepth ∨
        n.depth ≤ limits.maxDepth ∧ limits.maxNodes < n.cost ∧
          e = .tooManyNodes n.cost limits.maxNodes ∨
        n.depth ≤ limits.maxDepth ∧ n.cost ≤ limits.maxNodes ∧
          ∃ before c after, n.clauses = before ++ c :: after ∧ (∀ b ∈ before, b.WellTyped m) ∧
            ¬ c.WellTyped m ∧ c.Fault m e ∧
            ∀ own : FilterLimits, c.depth ≤ own.maxDepth → c.cost ≤ own.maxNodes →
              c.validate m own = .error e := by
  refine ⟨validate_eq_ok, wellTyped_iff_clauses, fun e => ?_⟩
  rw [validate_eq_error, check_eq_error_iff]
  refine or_congr Iff.rfl (or_congr Iff.rfl (and_congr Iff.rfl (and_congr Iff.rfl ?_)))
  refine exists_congr fun before => exists_congr fun c => exists_congr fun after =>
    and_congr_right fun _ => and_congr_right fun _ => ⟨fun hc => ?_, fun hc => hc.2.1⟩
  refine ⟨not_wellTyped_of_fault hc, hc, fun own hdepth hcost => ?_⟩
  rw [validate_of_within hdepth hcost, check_of_fault hc]

/-- Two clauses in a group that are not well-typed, behind one that is. -/
def blamedFilter : Node :=
  .mkBinary .and
    (.mkBinary (.compare .eq) (.field "name") (.literal ⟨"x", .string⟩))
    (.mkGroup (.mkBinary .or
      (.mkNot (.mkCall .contains (.field "NETSIZE") [.literal ⟨"1", .number⟩]))
      (.mkBinary (.compare .eq) (.field "ghost") (.field "name"))))

theorem validate_iff_blamedFilter :
    blamedFilter.validate partMap {} =
      .error (.operatorNotAllowed "netSize" "@contains" .number) := by
  have hname : (partMap.get? "name").map (fun f => (f.type, f.canFilter)) =
      some (.string, true) := by decide
  have hsize : (partMap.get? "NETSIZE").map (fun f => (f.name, f.type, f.canFilter)) =
      some ("netSize", .number, true) := by decide
  obtain ⟨name, hname, hpair⟩ := Option.map_eq_some_iff.1 hname
  obtain ⟨hnameType, hnameOpen⟩ := Prod.mk.inj hpair
  obtain ⟨size, hsize, htriple⟩ := Option.map_eq_some_iff.1 hsize
  obtain ⟨hsizeName, hpair⟩ := Prod.mk.inj htriple
  obtain ⟨hsizeType, hsizeOpen⟩ := Prod.mk.inj hpair
  have hfault : (mkCall .contains (field "NETSIZE") [literal ⟨"1", .number⟩]).Fault partMap
      (.operatorNotAllowed "netSize" "@contains" .number) := by
    rw [← hsizeName, ← hsizeType]
    exact .call rfl (.notAllowed hsize hsizeOpen (by rw [hsizeType]; rfl))
  refine ((validate_iff partMap {} blamedFilter).2.2 _).2 (.inr (.inr
    ⟨by decide, by decide, [_], _, [_], rfl, ?_, not_wellTyped_of_fault hfault, hfault,
      fun own hdepth hcost => ?_⟩))
  · intro b hb
    obtain rfl := List.mem_singleton.1 hb
    exact .comparison _ ⟨hname, hnameOpen, by rw [hnameType]; rfl⟩
      (by rw [hnameType]; rfl : Literal.resolve _ _ = some (.string "x"))
  · rw [validate_of_within hdepth hcost, check_of_fault hfault]

end Node

end EntityQuery
