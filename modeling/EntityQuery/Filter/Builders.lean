import EntityQuery.Filter.Node

/-!
# Trees from the builders

`Node.Built` says that the builders made a tree all the way up, so that every size in it is computed
from the parts. A tree that comes with sizes of its own need not be like that; `resize` puts it
through the builders once more.
-/

namespace EntityQuery.Node

/-- The builders made every node of the tree. -/
inductive Built : Node → Prop where
  | literal (l : Literal) : Built (literal l)
  | field (name : String) : Built (field name)
  | not {n : Node} (h : Built n) : Built (mkNot n)
  | binary (op : BinaryOp) {l r : Node} (hl : Built l) (hr : Built r) : Built (mkBinary op l r)
  | call (op : CallOp) {t : Node} {args : List Node} (ht : Built t) (hargs : ∀ a ∈ args, Built a) :
      Built (mkCall op t args)
  | group {n : Node} (h : Built n) : Built (mkGroup n)

mutual

/-- The same tree with every node made by its builder. -/
def resize : Node → Node
  | literal l => literal l
  | field name => field name
  | negation n _ => mkNot n.resize
  | binary op l r _ => mkBinary op l.resize r.resize
  | call op t args _ => mkCall op t.resize (resizeAll args)
  | group n _ => mkGroup n.resize

def resizeAll : List Node → List Node
  | [] => []
  | n :: ns => n.resize :: resizeAll ns

end

theorem built_resize (n : Node) : n.resize.Built := by
  induction n using Node.induction with
  | literal l => exact .literal l
  | field name => exact .field name
  | negation n s ih => exact .not ih
  | binary op l r s ihl ihr => exact .binary op ihl ihr
  | group n s ih => exact .group ih
  | call op t args s iht ihargs =>
    refine .call op iht ?_
    induction args with
    | nil => exact fun a ha => absurd ha List.not_mem_nil
    | cons a args ih =>
      obtain ⟨ha, hargs⟩ := List.forall_mem_cons.1 ihargs
      exact List.forall_mem_cons.2 ⟨ha, ih hargs⟩

end EntityQuery.Node
