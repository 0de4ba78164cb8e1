import EntityQuery.Filter.Codec
import EntityQuery.Proofs.Filter.Faults
import EntityQuery.Proofs.Filter.Reading

/-!
# What the limits bind

Validation compares the limits with the size that stands at the root of a tree. `operatorCount` and
`nesting` are counted in the tree itself. A tree that comes from the builders all the way up
(`Node.Built`), as one that was read or resized does, carries exactly these numbers
(`Node.Built.size_eq`), so that the limits bind on it. A tree whose sizes came with it from
elsewhere is bound by them only as far as its root tells the truth.
-/

namespace EntityQuery

variable {α : Type} {m : FieldMap α}

namespace Node

/-! ## Counting in the tree -/

mutual

/-- The number of operator nodes. -/
def operatorCount : Node → Nat
  | literal _ | field _ => 0
  | negation n _ => n.operatorCount + 1
  | binary _ l r _ => l.operatorCount + r.operatorCount + 1
  | call _ t args _ => t.operatorCount + operatorCountOfAll args + 1
  | group n _ => n.operatorCount + 1

def operatorCountOfAll : List Node → Nat
  | [] => 0
  | n :: ns => n.operatorCount + operatorCountOfAll ns

end

mutual

/-- The largest number of groups on a way from the root to a leaf. -/
def nesting : Node → Nat
  | literal _ | field _ => 0
  | negation n _ => n.nesting
  | binary _ l r _ => max l.nesting r.nesting
  | call _ t args _ => max t.nesting (nestingOfAll args)
  | group n _ => n.nesting + 1

def nestingOfAll : List Node → Nat
  | [] => 0
  | n :: ns => max n.nesting (nestingOfAll ns)

end

/-- The size that the builders give to such a tree. -/
def trueSize (n : Node) : Size := ⟨n.nesting + 1, n.operatorCount⟩

/-- Resizing changes nothing but the sizes. -/
theorem counts_resize (n : Node) :
    n.resize.operatorCount = n.operatorCount ∧ n.resize.nesting = n.nesting := by
  induction n using Node.induction with
  | literal l => exact ⟨rfl, rfl⟩
  | field name => exact ⟨rfl, rfl⟩
  | negation n s ih =>
    simp only [resize, mkNot, operatorCount, nesting, ih, and_self]
  | binary op l r s ihl ihr =>
    simp only [resize, mkBinary, operatorCount, nesting, ihl, ihr, and_self]
  | group n s ih =>
    simp only [resize, mkGroup, operatorCount, nesting, ih, and_self]
  | call op t args s iht ihargs =>
    have hargs : operatorCountOfAll (resizeAll args) = operatorCountOfAll args ∧
        nestingOfAll (resizeAll args) = nestingOfAll args := by
      induction args with
      | nil => exact ⟨rfl, rfl⟩
      | cons a args ih =>
        obtain ⟨ha, hargs⟩ := List.forall_mem_cons.1 ihargs
        simp only [resizeAll, operatorCountOfAll, nestingOfAll, ha, ih hargs, and_self]
    simp only [resize, mkCall, operatorCount, nesting, iht, hargs, and_self]

/-! ## Trees from the builders -/

/-- Joining keeps the deepest nesting, one more for the leaf, and adds the counts. -/
theorem foldl_join_trueSize {args : List Node} (h : ∀ a ∈ args, a.size = a.trueSize)
    (depth cost : Nat) :
    (args.map size).foldl Size.join ⟨depth + 1, cost⟩ =
      ⟨max depth (nestingOfAll args) + 1, cost + operatorCountOfAll args⟩ := by
  induction args generalizing depth cost with
  | nil => simp only [List.map_nil, List.foldl_nil, nestingOfAll, operatorCountOfAll, Nat.max_zero,
      Nat.add_zero]
  | cons a args ih =>
    obtain ⟨ha, hargs⟩ := List.forall_mem_cons.1 h
    have hjoin : Size.join ⟨depth + 1, cost⟩ a.size =
        ⟨max depth a.nesting + 1, cost + a.operatorCount⟩ := by
      rw [ha, Size.join, trueSize, Nat.add_max_add_right]
    rw [List.map_cons, List.foldl_cons, hjoin, ih hargs, nestingOfAll, operatorCountOfAll,
      Nat.max_assoc, Nat.add_assoc]

/-- A tree from the builders carries its own measure. -/
theorem Built.size_eq {n : Node} (h : n.Built) : n.size = n.trueSize := by
  induction h with
  | literal l => rfl
  | field name => rfl
  | not _ ih => rw [mkNot, size, ih]; rfl
  | binary op _ _ ihl ihr =>
    rw [mkBinary, size, ihl, ihr, trueSize, trueSize, Size.join, Size.succ, Nat.add_max_add_right]
    rfl
  | call op _ _ iht ihargs =>
    rw [mkCall, size, iht, trueSize, foldl_join_trueSize ihargs]
    rfl
  | group _ ih => rw [mkGroup, size, ih]; rfl

end Node

namespace Grammar

theorem built_callTree (f : List Char) (op : CallOp) (vs : List Literal) :
    (callTree f op vs).Built := by
  refine .call op (.field _) fun a ha => ?_
  obtain ⟨v, -, rfl⟩ := List.mem_map.1 ha
  exact .literal v

theorem ClauseTree.built {w : List Token} {n : Node} (h : ClauseTree w n) : n.Built := by
  cases h with
  | comparison f k c h => exact .binary _ (.field _) (.literal _)
  | text f ho ha => exact built_callTree f _ _
  | list f l r ho h => exact built_callTree f _ _
  | between f k l c r hl hh => exact built_callTree f _ _
  | isNull f j k => exact built_callTree f _ _
  | isNotNull f i j k => exact built_callTree f _ _

theorem Derives.built {p : Phrase} {w : List Token} {n : Node} (h : Derives p w n) : n.Built := by
  induction h with
  | or k _ _ ihl ihr => exact .binary .or ihl ihr
  | and k _ _ ihl ihr => exact .binary .and ihl ihr
  | conjunction _ ih | negation _ ih | primary _ ih => exact ih
  | not k _ ih => exact .not ih
  | clause h => exact h.built
  | group l r _ ih => exact .group ih

end Grammar

namespace Node

theorem built_of_parse {s : String} {n : Node} (h : Node.parse s = .ok n) : n.Built := by
  obtain ⟨ls, -, hsentence⟩ := parse_eq_ok.1 h
  exact hsentence.built

/-! ## Limits -/

/-- No validation lets a tree through that has more operator nodes, or is nested deeper, than the
limits say. -/
def LimitsBind (m : FieldMap α) (n : Node) : Prop :=
  ∀ limits : FilterLimits, n.validate m limits = .ok () →
    n.operatorCount ≤ limits.maxNodes ∧ n.nesting + 1 ≤ limits.maxDepth

theorem limitsBind_iff_root {n : Node} :
    n.LimitsBind m ↔ (n.WellTyped m → n.operatorCount ≤ n.cost ∧ n.nesting + 1 ≤ n.depth) := by
  constructor
  · intro h htyped
    exact h { maxDepth := n.depth, maxNodes := n.cost }
      (validate_eq_ok.2 ⟨Nat.le_refl _, Nat.le_refl _, htyped⟩)
  · intro h limits hvalid
    obtain ⟨hdepth, hcost, htyped⟩ := validate_eq_ok.1 hvalid
    obtain ⟨hcount, hnesting⟩ := h htyped
    exact ⟨Nat.le_trans hcount hcost, Nat.le_trans hnesting hdepth⟩

theorem Built.limitsBind {n : Node} (h : n.Built) : n.LimitsBind m := by
  refine limitsBind_iff_root.2 fun _ => ?_
  rw [cost, depth, h.size_eq]
  exact ⟨Nat.le_refl _, Nat.le_refl _⟩

/-- The limits bind on a tree exactly if its root, whatever stands below it, does not understate
the tree, or no limits let it through. They bind on every tree from the builders, so on every
filter that was read and on every tree that is resized first. -/
theorem limits_bind (m : FieldMap α) (n : Node) :
    (n.LimitsBind m ↔ (n.WellTyped m → n.operatorCount ≤ n.cost ∧ n.nesting + 1 ≤ n.depth)) ∧
      (n.Built → n.size = n.trueSize ∧ n.LimitsBind m) ∧
      (∀ s, Node.parse s = .ok n → n.Built) ∧
      n.resize.Built ∧ n.resize.trueSize = n.trueSize ∧ n.resize.LimitsBind m := by
  refine ⟨limitsBind_iff_root, fun h => ⟨h.size_eq, h.limitsBind⟩, fun _ => built_of_parse,
    built_resize n, ?_, (built_resize n).limitsBind⟩
  obtain ⟨hcount, hnesting⟩ := counts_resize n
  rw [trueSize, hcount, hnesting, trueSize]

/-- A comparison in a group that is said to have no operator node in it. -/
def understatedJson : Json :=
  .object [("kind", .string "group"), ("depth", .int 1), ("cost", .int 0),
    ("expression", (mkBinary (.compare .eq) (field "name") (literal ⟨"x", .string⟩)).toJson)]

/-- As a value with its own sizes the tree is taken for one node without a group. -/
theorem decoded_not_bound :
    ∃ n, Node.ofJson? understatedJson = some n ∧
      n.validate partMap { maxDepth := 1, maxNodes := 1 } = .ok () ∧
      n.operatorCount = 2 ∧ n.nesting + 1 = 2 :=
  ⟨group (mkBinary (.compare .eq) (field "name") (literal ⟨"x", .string⟩)) ⟨1, 0⟩, rfl,
    rfl, rfl, rfl⟩

end Node

end EntityQuery
