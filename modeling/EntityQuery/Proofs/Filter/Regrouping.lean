import EntityQuery.Proofs.Document.Selection
import EntityQuery.Proofs.Filter.Rewriting
import Mathlib.Data.List.Forall2

/-!
# Groups and runs of one connective

Groups say how a text is read; in a tree they add nothing. A valid filter binds to the very same
predicate and document filter when any of its groups are replaced by what they hold
(`Node.Ungroups`). A run of one connective may also be bracketed anew (`Node.Regrouping`): since
joining document filters is associative, the document filter stays the same, and the predicate has
the same value on every entity (`Node.groups_transparent`).
-/

namespace EntityQuery

variable {α : Type} {m : FieldMap α}

namespace Node

/-! ## Erased groups -/

/-- The second tree is the first with some of its groups replaced by what they hold, whatever sizes
the nodes carry. -/
inductive Ungroups : Node → Node → Prop where
  | literal (l : Literal) : Ungroups (literal l) (literal l)
  | field (name : String) : Ungroups (field name) (field name)
  | negation {n n' : Node} (s s' : Size) (h : Ungroups n n') :
      Ungroups (negation n s) (negation n' s')
  | binary (op : BinaryOp) {l l' r r' : Node} (s s' : Size) (hl : Ungroups l l')
      (hr : Ungroups r r') : Ungroups (binary op l r s) (binary op l' r' s')
  | call (op : CallOp) {t t' : Node} {args args' : List Node} (s s' : Size) (ht : Ungroups t t')
      (hargs : List.Forall₂ Ungroups args args') : Ungroups (call op t args s) (call op t' args' s')
  | keep {n n' : Node} (s s' : Size) (h : Ungroups n n') : Ungroups (group n s) (group n' s')
  | erase {n n' : Node} (s : Size) (h : Ungroups n n') : Ungroups (group n s) n'

theorem eq_of_ungroups_literals {ls : List Literal} {args : List Node}
    (h : List.Forall₂ Ungroups (ls.map literal) args) : args = ls.map literal := by
  induction ls generalizing args with
  | nil =>
    cases h
    rfl
  | cons l ls ih =>
    cases h with
    | cons hl hls =>
      cases hl
      rw [ih hls]
      rfl

/-- Groups leave no trace in what a well-typed filter binds to. -/
theorem Ungroups.binds_eq {n n' : Node} (h : Ungroups n n') (hn : n.WellTyped m) :
    n'.toPredicate m = n.toPredicate m ∧ n'.toDocumentFilter m = n.toDocumentFilter m := by
  induction hn generalizing n' with
  | negation s _ ih =>
    cases h with
    | negation _ s' h =>
      obtain ⟨hp, hd⟩ := ih h
      exact ⟨by rw [toPredicate, toPredicate, hp],
        by rw [toDocumentFilter, toDocumentFilter, hd]⟩
  | group s _ ih =>
    cases h with
    | keep _ s' h =>
      obtain ⟨hp, hd⟩ := ih h
      exact ⟨hp, hd⟩
    | erase _ h => exact ih h
  | and s _ _ ihl ihr =>
    cases h with
    | binary _ _ s' hl hr =>
      obtain ⟨hp, hd⟩ := ihl hl
      obtain ⟨hq, he⟩ := ihr hr
      exact ⟨by rw [toPredicate, toPredicate, hp, hq],
        by rw [toDocumentFilter, toDocumentFilter, hd, he]⟩
  | or s _ _ ihl ihr =>
    cases h with
    | binary _ _ s' hl hr =>
      obtain ⟨hp, hd⟩ := ihl hl
      obtain ⟨hq, he⟩ := ihr hr
      exact ⟨by rw [toPredicate, toPredicate, hp, hq],
        by rw [toDocumentFilter, toDocumentFilter, hd, he]⟩
  | comparison s hf hv =>
    cases h with
    | binary _ _ s' hl hr =>
      cases hl
      cases hr
      exact ⟨rfl, rfl⟩
  | call s hf hcount hvs =>
    cases h with
    | call _ _ s' ht hargs =>
      cases ht
      rw [eq_of_ungroups_literals hargs]
      exact ⟨rfl, rfl⟩

/-! ## Runs of one connective -/

/-- A run of one connective is bracketed the other way, or a group is left out or put in. -/
inductive Regrouping : Node → Node → Prop where
  | toRight {op : BinaryOp} (hop : Connective op) (a b c : Node) (s₁ s₂ s₃ s₄ : Size) :
      Regrouping (binary op (binary op a b s₁) c s₂) (binary op a (binary op b c s₃) s₄)
  | toLeft {op : BinaryOp} (hop : Connective op) (a b c : Node) (s₁ s₂ s₃ s₄ : Size) :
      Regrouping (binary op a (binary op b c s₁) s₂) (binary op (binary op a b s₃) c s₄)
  | ungroup (n : Node) (s : Size) : Regrouping (group n s) n
  | regroup (n : Node) (s : Size) : Regrouping n (group n s)

theorem exists_joinOperator {op : BinaryOp} (hop : Connective op) :
    ∃ key, ∀ (l r : Node) (s : Size), (binary op l r s).toDocumentFilter m =
      (do
        let f ← l.toDocumentFilter m
        let g ← r.toDocumentFilter m
        pure (.join key f g)) := by
  cases hop with
  | and => exact ⟨"$and", fun l r s => by rw [toDocumentFilter]⟩
  | or => exact ⟨"$or", fun l r s => by rw [toDocumentFilter]⟩

theorem toDocumentFilter_rotate {op : BinaryOp} (hop : Connective op) (a b c : Node)
    (s₁ s₂ s₃ s₄ : Size) :
    (binary op a (binary op b c s₃) s₄).toDocumentFilter m =
      (binary op (binary op a b s₁) c s₂).toDocumentFilter m := by
  obtain ⟨key, hbinds⟩ := exists_joinOperator (m := m) hop
  simp only [hbinds]
  cases a.toDocumentFilter m with
  | error e => rfl
  | ok f =>
    cases b.toDocumentFilter m with
    | error e => rfl
    | ok g =>
      cases c.toDocumentFilter m with
      | error e => rfl
      | ok h => exact congrArg Except.ok (DocumentFilter.join_assoc key f g h).symm

theorem toDocumentFilter_connective {op : BinaryOp} (hop : Connective op) {l l' r r' : Node}
    (hl : l'.toDocumentFilter m = l.toDocumentFilter m)
    (hr : r'.toDocumentFilter m = r.toDocumentFilter m) (s s' : Size) :
    (binary op l' r' s').toDocumentFilter m = (binary op l r s).toDocumentFilter m := by
  obtain ⟨key, hbinds⟩ := exists_joinOperator (m := m) hop
  rw [hbinds, hbinds, hl, hr]

theorem toDocumentFilter_regrouped {n n' : Node} (h : InContext Regrouping n n') :
    n'.toDocumentFilter m = n.toDocumentFilter m := by
  induction h with
  | here h =>
    cases h with
    | toRight hop a b c s₁ s₂ s₃ s₄ => exact toDocumentFilter_rotate hop a b c s₁ s₂ s₃ s₄
    | toLeft hop a b c s₁ s₂ s₃ s₄ => exact (toDocumentFilter_rotate hop a b c s₃ s₄ s₁ s₂).symm
    | ungroup n s => rfl
    | regroup n s => rfl
  | negation s s' _ ih => rw [toDocumentFilter, toDocumentFilter, ih]
  | group s s' _ ih => exact ih
  | left s s' hop _ ih => exact toDocumentFilter_connective hop ih rfl s s'
  | right s s' hop _ ih => exact toDocumentFilter_connective hop rfl ih s s'

theorem alike_rotate {op : BinaryOp} (hop : Connective op) {a b c : Node} (ha : a.WellTyped m)
    (hb : b.WellTyped m) (hc : c.WellTyped m) (s₁ s₂ s₃ s₄ : Size) :
    Alike m (binary op (binary op a b s₁) c s₂) (binary op a (binary op b c s₃) s₄) := by
  obtain ⟨u, hu⟩ := exists_means ha
  obtain ⟨v, hv⟩ := exists_means hb
  obtain ⟨w, hw⟩ := exists_means hc
  cases hop with
  | and => exact ⟨_, (hu.and hv s₁).and hw s₂, u.and_assoc v w ▸ hu.and (hv.and hw s₃) s₄⟩
  | or => exact ⟨_, (hu.or hv s₁).or hw s₂, u.or_assoc v w ▸ hu.or (hv.or hw s₃) s₄⟩

theorem sound_regrouping : Sound m Regrouping := by
  intro n n' h hn
  cases h with
  | toRight hop a b c s₁ s₂ s₃ s₄ =>
    obtain ⟨hab, hc⟩ := (wellTyped_connective hop).1 hn
    obtain ⟨ha, hb⟩ := (wellTyped_connective hop).1 hab
    exact ⟨(wellTyped_connective hop).2 ⟨ha, (wellTyped_connective hop).2 ⟨hb, hc⟩⟩,
      alike_rotate hop ha hb hc s₁ s₂ s₃ s₄⟩
  | toLeft hop a b c s₁ s₂ s₃ s₄ =>
    obtain ⟨ha, hbc⟩ := (wellTyped_connective hop).1 hn
    obtain ⟨hb, hc⟩ := (wellTyped_connective hop).1 hbc
    exact ⟨(wellTyped_connective hop).2 ⟨(wellTyped_connective hop).2 ⟨ha, hb⟩, hc⟩,
      (alike_rotate hop ha hb hc s₃ s₄ s₁ s₂).symm⟩
  | ungroup n s =>
    cases hn with
    | group _ hn =>
      obtain ⟨v, hv⟩ := exists_means hn
      exact ⟨hn, v, hv.group s, hv⟩
  | regroup n s =>
    obtain ⟨v, hv⟩ := exists_means hn
    exact ⟨.group s hn, v, hv, hv.group s⟩

theorem toDocumentFilter_of_steps {n n' : Node}
    (h : Relation.ReflTransGen (InContext Regrouping) n n') :
    n'.toDocumentFilter m = n.toDocumentFilter m := by
  induction h with
  | refl => rfl
  | tail _ hstep ih => exact (toDocumentFilter_regrouped hstep).trans ih

/-- Groups of a valid filter may be left out, at any places, and nothing changes in what it binds
to. Bracketing its runs of one connective anew, in any number of steps, keeps the document filter
and the value of the predicate. -/
theorem groups_transparent {limits : FilterLimits} {n : Node}
    (hn : n.validate m limits = .ok ()) :
    ∃ p d, n.toPredicate m = .ok p ∧ n.toDocumentFilter m = .ok d ∧
      (∀ n', n.Ungroups n' → n'.toPredicate m = .ok p ∧ n'.toDocumentFilter m = .ok d) ∧
      ∀ n', Relation.ReflTransGen (InContext Regrouping) n n' →
        ∃ p', n'.toPredicate m = .ok p' ∧ n'.toDocumentFilter m = .ok d ∧
          ∀ entity, p'.evaluate entity = p.evaluate entity := by
  have htyped := wellTyped_of_validate hn
  obtain ⟨v, p, d, hp, hd, hpv, hdv⟩ := exists_means htyped
  refine ⟨p, d, hp, hd, fun n' h => ?_, fun n' h => ?_⟩
  · obtain ⟨hp', hd'⟩ := h.binds_eq htyped
    exact ⟨hp'.trans hp, hd'.trans hd⟩
  · obtain ⟨-, w, hw, p', d', hp', -, hpw, -⟩ := alike_of_steps sound_regrouping h htyped
    have hvw : w = v := hw.unique ⟨p, d, hp, hd, hpv, hdv⟩
    refine ⟨p', hp', (toDocumentFilter_of_steps h).trans hd, fun entity => ?_⟩
    rw [hpw, hpv, hvw]

/-- `name == 'a' and (netSize > 1 and not (name is null))`, all in parentheses once more. -/
def nestedFilter : Node :=
  mkGroup (mkBinary .and (mkBinary (.compare .eq) (field "name") (literal ⟨"a", .string⟩))
    (mkGroup (mkBinary .and (mkBinary (.compare .gt) (field "netSize") (literal ⟨"1", .number⟩))
      (mkNot (mkGroup (mkCall .isNull (field "name") []))))))

/-- `name == 'a' and netSize > 1 and not (name is null)` -/
def chainedFilter : Node :=
  mkBinary .and
    (mkBinary .and (mkBinary (.compare .eq) (field "name") (literal ⟨"a", .string⟩))
      (mkBinary (.compare .gt) (field "netSize") (literal ⟨"1", .number⟩)))
    (mkNot (mkGroup (mkCall .isNull (field "name") [])))

/-- The chain without parentheses: `not` still stands over the test alone. -/
def bareFilter : Node :=
  mkBinary .and (mkBinary (.compare .eq) (field "name") (literal ⟨"a", .string⟩))
    (mkBinary .and (mkBinary (.compare .gt) (field "netSize") (literal ⟨"1", .number⟩))
      (mkNot (mkCall .isNull (field "name") [])))

theorem ungroups_nestedFilter : nestedFilter.Ungroups bareFilter :=
  .erase _ (.binary _ _ _ (.binary _ _ _ (.field _) (.literal _))
    (.erase _ (.binary _ _ _ (.binary _ _ _ (.field _) (.literal _))
      (.negation _ _ (.erase _ (.call _ _ _ (.field _) .nil))))))

theorem steps_nestedFilter :
    Relation.ReflTransGen (InContext Regrouping) nestedFilter chainedFilter := by
  refine .head (.here (.ungroup _ _)) ?_
  refine .head (.right _ .leaf .and (.here (.ungroup _ _))) ?_
  exact .single (.here (.toLeft .and _ _ _ _ _ _ _))

theorem groups_transparent_nestedFilter :
    nestedFilter.validate partMap {} = .ok () ∧ nestedFilter.Ungroups bareFilter ∧
      Relation.ReflTransGen (InContext Regrouping) nestedFilter chainedFilter ∧
      ∃ p d, nestedFilter.toPredicate partMap = .ok p ∧
        nestedFilter.toDocumentFilter partMap = .ok d ∧
        bareFilter.toPredicate partMap = .ok p ∧ bareFilter.toDocumentFilter partMap = .ok d ∧
        ∃ p', chainedFilter.toPredicate partMap = .ok p' ∧
          chainedFilter.toDocumentFilter partMap = .ok d ∧
          ∀ entity, p'.evaluate entity = p.evaluate entity := by
  have hvalid : nestedFilter.validate partMap {} = .ok () :=
    Except.eq_ok_of_isOk (by decide +kernel)
  obtain ⟨p, d, hp, hd, herased, hregrouped⟩ := groups_transparent hvalid
  obtain ⟨hp', hd'⟩ := herased _ ungroups_nestedFilter
  exact ⟨hvalid, ungroups_nestedFilter, steps_nestedFilter, p, d, hp, hd, hp', hd',
    hregrouped _ steps_nestedFilter⟩

end Node

end EntityQuery
