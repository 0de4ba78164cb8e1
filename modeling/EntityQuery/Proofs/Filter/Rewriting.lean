import EntityQuery.Proofs.Document.Join
import EntityQuery.Proofs.Filter.Binding
import Mathlib.Logic.Relation

/-!
# Rewriting inside filters

`Node.Means` gives a filter its `Verdict`: what its two bound forms say of every entity and of every
document. A rule that rewrites filters may be put to any part of one (`Node.InContext`); if it keeps
well-typed filters well-typed and does not change what they mean, neither do any number of such
steps (`Node.alike_of_steps`).
-/

namespace EntityQuery

variable {α : Type} {m : FieldMap α}

/-- What a filter says of entities and of documents. -/
@[ext]
structure Verdict (α : Type) where
  onEntity : α → Bool
  onDocument : Json → Bool

namespace Verdict

def not (v : Verdict α) : Verdict α := ⟨fun e => !v.onEntity e, fun doc => !v.onDocument doc⟩

def and (v w : Verdict α) : Verdict α :=
  ⟨fun e => v.onEntity e && w.onEntity e, fun doc => v.onDocument doc && w.onDocument doc⟩

def or (v w : Verdict α) : Verdict α :=
  ⟨fun e => v.onEntity e || w.onEntity e, fun doc => v.onDocument doc || w.onDocument doc⟩

theorem not_not (v : Verdict α) : v.not.not = v := by
  simp only [not, Bool.not_not]

theorem not_and (v w : Verdict α) : (v.and w).not = v.not.or w.not := by
  simp only [not, and, or, Bool.not_and]

theorem not_or (v w : Verdict α) : (v.or w).not = v.not.and w.not := by
  simp only [not, and, or, Bool.not_or]

theorem and_assoc (u v w : Verdict α) : (u.and v).and w = u.and (v.and w) := by
  simp only [and, Bool.and_assoc]

theorem or_assoc (u v w : Verdict α) : (u.or v).or w = u.or (v.or w) := by
  simp only [or, Bool.or_assoc]

end Verdict

namespace Node

/-! ## Meaning -/

/-- The filter binds in both forms, and this is what they say. -/
def Means (m : FieldMap α) (n : Node) (v : Verdict α) : Prop :=
  ∃ p d, n.toPredicate m = .ok p ∧ n.toDocumentFilter m = .ok d ∧
    (∀ entity, p.evaluate entity = v.onEntity entity) ∧ ∀ doc, d.selects doc = v.onDocument doc

/-- Two filters that bind and say the same. -/
def Alike (m : FieldMap α) (n n' : Node) : Prop := ∃ v, n.Means m v ∧ n'.Means m v

theorem Means.unique {n : Node} {v w : Verdict α} (hv : n.Means m v) (hw : n.Means m w) :
    v = w := by
  obtain ⟨p, d, hp, hd, hpv, hdv⟩ := hv
  obtain ⟨q, e, hq, he, hqw, hew⟩ := hw
  cases hp.symm.trans hq
  cases hd.symm.trans he
  refine Verdict.ext (funext fun entity => ?_) (funext fun doc => ?_)
  · rw [← hpv, hqw]
  · rw [← hdv, hew]

theorem exists_means {n : Node} (h : n.WellTyped m) : ∃ v, n.Means m v := by
  obtain ⟨p, hp, -⟩ := fits_of_wellTyped h
  obtain ⟨d, hd⟩ := toDocumentFilter_ok_iff.2 ⟨p, hp⟩
  exact ⟨⟨fun entity => p.evaluate entity, d.selects⟩, p, d, hp, hd, fun _ => rfl, fun _ => rfl⟩

theorem Means.negation {n : Node} {v : Verdict α} (h : n.Means m v) (s : Size) :
    (negation n s).Means m v.not := by
  obtain ⟨p, d, hp, hd, hpv, hdv⟩ := h
  refine ⟨.not p, d.negate, by rw [toPredicate, hp]; rfl, by rw [toDocumentFilter, hd]; rfl,
    fun entity => ?_, fun doc => ?_⟩
  · rw [Predicate.evaluate, hpv]
    rfl
  · rw [DocumentFilter.selects_negate, hdv]
    rfl

theorem Means.group {n : Node} {v : Verdict α} (h : n.Means m v) (s : Size) :
    (group n s).Means m v := h

theorem Means.and {l r : Node} {v w : Verdict α} (hl : l.Means m v) (hr : r.Means m w)
    (s : Size) : (binary .and l r s).Means m (v.and w) := by
  obtain ⟨p, d, hp, hd, hpv, hdv⟩ := hl
  obtain ⟨q, e, hq, he, hqw, hew⟩ := hr
  refine ⟨.and p q, .join "$and" d e, by rw [toPredicate, hp, hq]; rfl,
    by rw [toDocumentFilter, hd, he]; rfl, fun entity => ?_, fun doc => ?_⟩
  · rw [Predicate.evaluate, hpv, hqw]
    rfl
  · rw [DocumentFilter.selects_join_and, hdv, hew]
    rfl

theorem Means.or {l r : Node} {v w : Verdict α} (hl : l.Means m v) (hr : r.Means m w)
    (s : Size) : (binary .or l r s).Means m (v.or w) := by
  obtain ⟨p, d, hp, hd, hpv, hdv⟩ := hl
  obtain ⟨q, e, hq, he, hqw, hew⟩ := hr
  refine ⟨.or p q, .join "$or" d e, by rw [toPredicate, hp, hq]; rfl,
    by rw [toDocumentFilter, hd, he]; rfl, fun entity => ?_, fun doc => ?_⟩
  · rw [Predicate.evaluate, hpv, hqw]
    rfl
  · rw [DocumentFilter.selects_join_or, hdv, hew]
    rfl

/-! ## Steps -/

/-- Operators that join two filters. -/
inductive Connective : BinaryOp → Prop where
  | and : Connective .and
  | or : Connective .or

/-- A step by a rule at some place of a filter. What sizes the nodes around it carry is left open. -/
inductive InContext (rule : Node → Node → Prop) : Node → Node → Prop where
  | here {n n' : Node} (h : rule n n') : InContext rule n n'
  | negation {n n' : Node} (s s' : Size) (h : InContext rule n n') :
      InContext rule (negation n s) (negation n' s')
  | group {n n' : Node} (s s' : Size) (h : InContext rule n n') :
      InContext rule (group n s) (group n' s')
  | left {op : BinaryOp} {l l' r : Node} (s s' : Size) (hop : Connective op)
      (h : InContext rule l l') : InContext rule (binary op l r s) (binary op l' r s')
  | right {op : BinaryOp} {l r r' : Node} (s s' : Size) (hop : Connective op)
      (h : InContext rule r r') : InContext rule (binary op l r s) (binary op l r' s')

/-- The rule takes well-typed filters to well-typed ones that say the same. -/
def Sound (m : FieldMap α) (rule : Node → Node → Prop) : Prop :=
  ∀ n n', rule n n' → n.WellTyped m → n'.WellTyped m ∧ Alike m n n'

theorem Alike.symm {n n' : Node} (h : Alike m n n') : Alike m n' n := by
  obtain ⟨v, hn, hn'⟩ := h
  exact ⟨v, hn', hn⟩

theorem Alike.trans {n n' n'' : Node} (h : Alike m n n') (h' : Alike m n' n'') :
    Alike m n n'' := by
  obtain ⟨v, hn, hv⟩ := h
  obtain ⟨w, hw, hn''⟩ := h'
  exact ⟨w, hv.unique hw ▸ hn, hn''⟩

theorem Alike.connective {op : BinaryOp} {l l' r r' : Node} (hop : Connective op)
    (hl : Alike m l l') (hr : Alike m r r') (s s' : Size) :
    Alike m (binary op l r s) (binary op l' r' s') := by
  obtain ⟨v, hv, hv'⟩ := hl
  obtain ⟨w, hw, hw'⟩ := hr
  cases hop with
  | and => exact ⟨_, hv.and hw s, hv'.and hw' s'⟩
  | or => exact ⟨_, hv.or hw s, hv'.or hw' s'⟩

theorem alike_refl {n : Node} (h : n.WellTyped m) : Alike m n n := by
  obtain ⟨v, hv⟩ := exists_means h
  exact ⟨v, hv, hv⟩

theorem wellTyped_connective {op : BinaryOp} (hop : Connective op) {l r : Node} {s : Size} :
    (binary op l r s).WellTyped m ↔ l.WellTyped m ∧ r.WellTyped m := by
  constructor
  · intro h
    cases h with
    | and s hl hr => exact ⟨hl, hr⟩
    | or s hl hr => exact ⟨hl, hr⟩
    | comparison => cases hop
  · rintro ⟨hl, hr⟩
    cases hop with
    | and => exact .and s hl hr
    | or => exact .or s hl hr

theorem Sound.inContext {rule : Node → Node → Prop} (hrule : Sound m rule) :
    Sound m (InContext rule) := by
  intro n n' h hn
  induction h with
  | here h => exact hrule _ _ h hn
  | negation s s' _ ih =>
    cases hn with
    | negation _ hn =>
      obtain ⟨hn', v, hv, hv'⟩ := ih hn
      exact ⟨.negation s' hn', v.not, hv.negation s, hv'.negation s'⟩
  | group s s' _ ih =>
    cases hn with
    | group _ hn =>
      obtain ⟨hn', halike⟩ := ih hn
      exact ⟨.group s' hn', halike⟩
  | left s s' hop _ ih =>
    obtain ⟨hl, hr⟩ := (wellTyped_connective hop).1 hn
    obtain ⟨hl', halike⟩ := ih hl
    exact ⟨(wellTyped_connective hop).2 ⟨hl', hr⟩, halike.connective hop (alike_refl hr) s s'⟩
  | right s s' hop _ ih =>
    obtain ⟨hl, hr⟩ := (wellTyped_connective hop).1 hn
    obtain ⟨hr', halike⟩ := ih hr
    exact ⟨(wellTyped_connective hop).2 ⟨hl, hr'⟩, (alike_refl hl).connective hop halike s s'⟩

/-- Any number of steps by a sound rule, wherever they are made, keep what a filter says. -/
theorem alike_of_steps {rule : Node → Node → Prop} (hrule : Sound m rule) {n n' : Node}
    (h : Relation.ReflTransGen (InContext rule) n n') (hn : n.WellTyped m) :
    n'.WellTyped m ∧ Alike m n n' := by
  induction h with
  | refl => exact ⟨hn, alike_refl hn⟩
  | tail _ hstep ih =>
    obtain ⟨hmid, halike⟩ := ih
    obtain ⟨hn', halike'⟩ := hrule.inContext _ _ hstep hmid
    exact ⟨hn', halike.trans halike'⟩

end Node

end EntityQuery
