import EntityQuery.Proofs.Filter.Sizes
import EntityQuery.Proofs.Json.Nested

/-!
# Inside a tree

The children of a node are the nodes right below it, and `Node.OccursIn` leads from a tree to each
of its nodes. The height of a tree counts the nodes on its longest way down. Only the last node of a
way is no operator, so the height is at most one more than the number of operator nodes
(`Node.height_le`).
-/

namespace EntityQuery

namespace Node

def children : Node → List Node
  | literal _ | field _ => []
  | negation n _ | group n _ => [n]
  | binary _ l r _ => [l, r]
  | call _ t args _ => t :: args

/-- What passes from the children of a node to the node holds of every tree. -/
theorem induction_children {P : Node → Prop} (step : ∀ n, (∀ c ∈ n.children, P c) → P n)
    (n : Node) : P n := by
  induction n using Node.induction with
  | literal l => exact step _ fun c hc => absurd hc List.not_mem_nil
  | field name => exact step _ fun c hc => absurd hc List.not_mem_nil
  | negation n s ih | group n s ih => exact step _ (List.forall_mem_singleton.2 ih)
  | binary op l r s ihl ihr =>
    exact step _ (List.forall_mem_cons.2 ⟨ihl, List.forall_mem_singleton.2 ihr⟩)
  | call op t args s iht ihargs => exact step _ (List.forall_mem_cons.2 ⟨iht, ihargs⟩)

/-! ## Nodes of a tree -/

/-- The node stands in the tree, at its root or below. -/
def OccursIn : Node → Node → Prop := Relation.ReflTransGen fun c n => c ∈ n.children

theorem forall_occursIn_iff {P : Node → Prop} {n : Node} :
    (∀ k : Node, k.OccursIn n → P k) ↔ P n ∧ ∀ c ∈ n.children, ∀ k : Node, k.OccursIn c → P k :=
  forall_reflTransGen_iff

/-! ## Height -/

mutual

/-- The number of nodes on the longest way from the root to a leaf. -/
def height : Node → Nat
  | literal _ | field _ => 1
  | negation n _ => n.height + 1
  | binary _ l r _ => max l.height r.height + 1
  | call _ t args _ => max t.height (heightOfAll args) + 1
  | group n _ => n.height + 1

def heightOfAll : List Node → Nat
  | [] => 0
  | n :: ns => max n.height (heightOfAll ns)

end

theorem height_pos (n : Node) : 0 < n.height := by
  cases n with
  | literal _ | field _ => exact Nat.one_pos
  | negation _ _ | binary _ _ _ _ | call _ _ _ _ | group _ _ => exact Nat.succ_pos _

theorem height_le_heightOfAll {ns : List Node} {n : Node} (h : n ∈ ns) :
    n.height ≤ heightOfAll ns := by
  induction ns with
  | nil => exact absurd h List.not_mem_nil
  | cons k ns ih =>
    rw [heightOfAll]
    rcases List.mem_cons.1 h with rfl | h
    · exact Nat.le_max_left _ _
    · exact Nat.le_trans (ih h) (Nat.le_max_right _ _)

theorem height_child_lt {c n : Node} (h : c ∈ n.children) : c.height < n.height := by
  cases n with
  | literal l => exact absurd h List.not_mem_nil
  | field name => exact absurd h List.not_mem_nil
  | negation n s | group n s =>
    obtain rfl := List.mem_singleton.1 h
    exact Nat.lt_succ_self _
  | binary op l r s =>
    rw [height]
    rcases List.mem_cons.1 h with rfl | h
    · omega
    · obtain rfl := List.mem_singleton.1 h
      omega
  | call op t args s =>
    rw [height]
    rcases List.mem_cons.1 h with rfl | h
    · omega
    · have hargs := height_le_heightOfAll h
      omega

/-- Every node of a way but the last is an operator. -/
theorem height_le (n : Node) : n.height ≤ n.operatorCount + 1 := by
  induction n using Node.induction with
  | literal l => exact Nat.le_refl _
  | field name => exact Nat.le_refl _
  | negation n s ih | group n s ih =>
    rw [height, operatorCount]
    omega
  | binary op l r s ihl ihr =>
    rw [height, operatorCount]
    omega
  | call op t args s iht ihargs =>
    have hargs : heightOfAll args ≤ operatorCountOfAll args + 1 := by
      induction args with
      | nil => exact Nat.zero_le _
      | cons a args ih =>
        obtain ⟨ha, hargs⟩ := List.forall_mem_cons.1 ihargs
        have hrest := ih hargs
        rw [heightOfAll, operatorCountOfAll]
        omega
    rw [height, operatorCount]
    omega

/-! ## Trees from the builders -/

theorem Built.child {c n : Node} (h : n.Built) (hc : c ∈ n.children) : c.Built := by
  cases h with
  | literal l => exact absurd hc List.not_mem_nil
  | field name => exact absurd hc List.not_mem_nil
  | not h => exact List.mem_singleton.1 hc ▸ h
  | group h => exact List.mem_singleton.1 hc ▸ h
  | binary op hl hr =>
    rcases List.mem_cons.1 hc with rfl | hc
    · exact hl
    · exact List.mem_singleton.1 hc ▸ hr
  | call op ht hargs =>
    rcases List.mem_cons.1 hc with rfl | hc
    · exact ht
    · exact hargs c hc

theorem Built.occursIn {k n : Node} (h : n.Built) (hk : k.OccursIn n) : k.Built := by
  induction hk using Relation.ReflTransGen.head_induction_on with
  | refl => exact h
  | head hc _ ih => exact ih.child hc

theorem Built.height_le {n : Node} (h : n.Built) : n.height ≤ n.cost + 1 := by
  rw [cost, h.size_eq]
  exact n.height_le

end Node

end EntityQuery
