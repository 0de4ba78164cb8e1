import EntityQuery.Filter.BindDocument
import EntityQuery.Filter.Validate
import EntityQuery.Proofs.Filter.Subtrees
import Mathlib.Data.List.Basic
import Mathlib.Logic.Function.Iterate

/-!
# How deep calls go

Writing, validating and binding a tree are recursions that stay on its ways down: each calls itself
on children of a node only (`Recurses`). A body leaves these calls open, so that `body^[k] other` is
the function with `k` calls inside one another, where `other` answers all calls that are deeper.
Whatever `other` is, with as many calls as the tree is high it is not asked (`Recurses.iterate_eq`).
-/

namespace EntityQuery

variable {α β : Type}

namespace Node

/-- The function is what the body makes of it, and the body calls it on children only. -/
structure Recurses (body : (Node → β) → Node → β) (f : Node → β) : Prop where
  unfold_eq : ∀ n, f n = body f n
  congr_children : ∀ {g g' : Node → β} {n : Node}, (∀ c ∈ n.children, g c = g' c) →
    body g n = body g' n

/-- On a tree of height at most `k` the function needs no more than `k` calls inside one another:
what a deeper call would be answered with does not matter. -/
theorem Recurses.iterate_eq {body : (Node → β) → Node → β} {f : Node → β} (h : Recurses body f)
    {k : Nat} {n : Node} (hk : n.height ≤ k) (other : Node → β) : body^[k] other n = f n := by
  induction k generalizing n with
  | zero => exact absurd n.height_pos (Nat.not_lt.2 hk)
  | succ k ih =>
    rw [Function.iterate_succ_apply', h.unfold_eq n]
    refine h.congr_children fun c hc => ih ?_
    have hlt := height_child_lt hc
    omega

/-- At this node the function has at most `k` calls inside one another. -/
structure CallsWithin (body : (Node → β) → Node → β) (f : Node → β) (k : Nat) (n : Node) :
    Prop where
  recurses : Recurses body f
  iterate_eq : ∀ other, body^[k] other n = f n

theorem Recurses.callsWithin {body : (Node → β) → Node → β} {f : Node → β} (h : Recurses body f)
    {k : Nat} {n : Node} (hk : n.height ≤ k) : CallsWithin body f k n :=
  ⟨h, h.iterate_eq hk⟩

/-! ## Texts -/

def textBody (self : Node → String) : Node → String
  | literal l => l.display
  | field name => name
  | negation n _ => "not " ++ self n
  | binary op l r _ => self l ++ " " ++ op.symbol ++ " " ++ self r
  | call op t [] _ => self t ++ " " ++ op.symbol
  | call op t (a :: as) _ =>
    self t ++ " " ++ op.symbol ++ " (" ++ self a ++
      as.foldr (fun n rest => ", " ++ self n ++ rest) "" ++ ")"
  | group n _ => "(" ++ self n ++ ")"

theorem textOfRest_eq (ns : List Node) :
    textOfRest ns = ns.foldr (fun n rest => ", " ++ n.text ++ rest) "" := by
  induction ns with
  | nil => rfl
  | cons n ns ih => rw [textOfRest, ih, List.foldr_cons]

theorem recurses_text : Recurses textBody text where
  unfold_eq n := by
    cases n with
    | literal _ | field _ | negation _ _ | binary _ _ _ _ | group _ _ => rfl
    | call op t args s =>
      cases args with
      | nil => rfl
      | cons a as => rw [text, textOfRest_eq, textBody]
  congr_children {g g' n} h := by
    cases n with
    | literal _ | field _ => rfl
    | negation n _ | group n _ => rw [textBody, textBody, h n (List.mem_singleton_self n)]
    | binary op l r _ =>
      obtain ⟨hl, hr⟩ := List.forall_mem_cons.1 h
      rw [textBody, textBody, hl, hr r (List.mem_singleton_self r)]
    | call op t args _ =>
      obtain ⟨ht, hargs⟩ := List.forall_mem_cons.1 h
      cases args with
      | nil => rw [textBody, textBody, ht]
      | cons a as =>
        obtain ⟨ha, has⟩ := List.forall_mem_cons.1 hargs
        have hrest : as.foldr (fun n rest => ", " ++ g n ++ rest) "" =
            as.foldr (fun n rest => ", " ++ g' n ++ rest) "" :=
          List.foldr_ext _ _ "" fun n hn rest => by rw [has n hn]
        rw [textBody, textBody, ht, ha, hrest]

/-! ## Validation -/

def checkBody (m : FieldMap α) (self : Node → Except ValidationError Unit) :
    Node → Except ValidationError Unit
  | n@(literal _) | n@(field _) => .error (n.malformed .notBoolean)
  | negation n _ | group n _ => self n
  | binary .and l r _ | binary .or l r _ => do
    self l
    self r
  | n@(binary (.compare c) l r _) => checkComparison m n c l r
  | n@(call op t args _) => checkCall m n op t args

theorem recurses_check (m : FieldMap α) : Recurses (checkBody m) (check m) where
  unfold_eq n := by
    cases n with
    | binary op l r s => cases op <;> rfl
    | _ => rfl
  congr_children {g g' n} h := by
    cases n with
    | literal _ | field _ | call _ _ _ _ => rfl
    | negation n _ | group n _ => exact h n (List.mem_singleton_self n)
    | binary op l r s =>
      obtain ⟨hl, hr⟩ := List.forall_mem_cons.1 h
      cases op with
      | and | or => rw [checkBody, checkBody, hl, hr r (List.mem_singleton_self r)]
      | compare c => rfl

/-! ## Binding -/

/-- The body of a binder, with what it makes of clauses and how it puts together what it made. -/
def bindBody (comparison : Comparison → Node → Node → Except BindError β)
    (clause : CallOp → Node → List Node → Except BindError β) (negate : β → β)
    (both either : β → β → β) (self : Node → Except BindError β) : Node → Except BindError β
  | n@(literal _) | n@(field _) => .error (.notBoolean n.text)
  | group n _ => self n
  | negation n _ => do
    let p ← self n
    pure (negate p)
  | binary .and l r _ => do
    let p ← self l
    let q ← self r
    pure (both p q)
  | binary .or l r _ => do
    let p ← self l
    let q ← self r
    pure (either p q)
  | binary (.compare c) l r _ => comparison c l r
  | call op t args _ => clause op t args

theorem recurses_bindBody {comparison : Comparison → Node → Node → Except BindError β}
    {clause : CallOp → Node → List Node → Except BindError β} {negate : β → β}
    {both either : β → β → β} {f : Node → Except BindError β}
    (unfold_eq : ∀ n, f n = bindBody comparison clause negate both either f n) :
    Recurses (bindBody comparison clause negate both either) f where
  unfold_eq := unfold_eq
  congr_children {g g' n} h := by
    cases n with
    | literal _ | field _ | call _ _ _ _ => rfl
    | group n _ => exact h n (List.mem_singleton_self n)
    | negation n _ => rw [bindBody, bindBody, h n (List.mem_singleton_self n)]
    | binary op l r s =>
      obtain ⟨hl, hr⟩ := List.forall_mem_cons.1 h
      cases op with
      | and | or => rw [bindBody, bindBody, hl, hr r (List.mem_singleton_self r)]
      | compare c => rfl

def predicateBody (m : FieldMap α) :
    (Node → Except BindError (Predicate α)) → Node → Except BindError (Predicate α) :=
  bindBody
    (fun c l r => do
      let f ← l.boundField m
      let v ← r.boundValue f
      pure (.compare f c v))
    (fun op t args => do
      let f ← t.boundField m
      let vs ← boundValues f args
      callPredicate f op vs)
    .not .and .or

def documentBody (m : FieldMap α) :
    (Node → Except BindError DocumentFilter) → Node → Except BindError DocumentFilter :=
  bindBody
    (fun c l r => do
      let f ← l.boundField m
      let v ← r.boundValue f
      pure (.field f.path (.object [(comparisonKey c, v.toDocument)])))
    (fun op t args => do
      let f ← t.boundField m
      let vs ← boundValues f args
      let c ← callCondition f op vs
      pure (.field f.path c))
    .negate (.join "$and") (.join "$or")

theorem recurses_toPredicate (m : FieldMap α) : Recurses (predicateBody m) (toPredicate m) :=
  recurses_bindBody fun n => by
    cases n with
    | binary op l r s => cases op <;> rfl
    | _ => rfl

theorem recurses_toDocumentFilter (m : FieldMap α) :
    Recurses (documentBody m) (toDocumentFilter m) :=
  recurses_bindBody fun n => by
    cases n with
    | binary op l r s => cases op <;> rfl
    | _ => rfl

end Node

end EntityQuery
