/-!
# Stable sorting

What is known of the sort of the library is a `Sorter`. By a total preorder it puts the entries in
order and keeps those that tie as they stood. Where the comparison is no total preorder on the
entries the order that comes out is open, and the sort may break off. `stableSort` is the sort that
runs here, one of those that are possible: it inserts one entry after another, past all entries that
it comes before.
-/

namespace EntityQuery

variable {α : Type}

/-! ## Sorts -/

/-- Any two of the entries are comparable, and what is not behind comes before. -/
structure TotalPreorderOn {β : Type} (compare : β → β → Ordering) (items : List β) : Prop where
  refl : ∀ a ∈ items, compare a a = .eq
  swap : ∀ a ∈ items, ∀ b ∈ items, (compare a b).swap = compare b a
  trans : ∀ a ∈ items, ∀ b ∈ items, ∀ c ∈ items,
    compare a b ≠ .gt → compare b c ≠ .gt → compare a c ≠ .gt

/-- The entries stand in order, and those that tie with any one of them as they stood before. -/
structure SortsStably {β : Type} (compare : β → β → Ordering) (items sorted : List β) : Prop where
  perm : sorted.Perm items
  ordered : sorted.Pairwise fun a b => compare a b ≠ .gt
  ties : ∀ a ∈ items,
    sorted.filter (fun b => compare a b == .eq) = items.filter (fun b => compare a b == .eq)

/-- A sort by a comparison, which gives nothing if it breaks off. -/
structure Sorter where
  run {β : Type} (compare : β → β → Ordering) (items : List β) : Option (List β)
  /-- No entry is lost or repeated, whatever the comparison says. -/
  perm {β : Type} {compare : β → β → Ordering} {items sorted : List β} :
    run compare items = some sorted → sorted.Perm items
  sorts {β : Type} {compare : β → β → Ordering} {items : List β} :
    TotalPreorderOn compare items → ∃ sorted, run compare items = some sorted ∧
      SortsStably compare items sorted

/-! ## Insertion -/

/-- Puts an entry into a list that stands in reverse order. -/
def insertReversed (before : α → α → Bool) (x : α) : List α → List α
  | [] => [x]
  | y :: ys => if before x y then y :: insertReversed before x ys else x :: y :: ys

/-- The entries in reverse order, on top of a list in reverse order. -/
def sortOnto (before : α → α → Bool) (done : List α) : List α → List α
  | [] => done
  | x :: xs => sortOnto before (insertReversed before x done) xs

def stableSort (before : α → α → Bool) (xs : List α) : List α := (sortOnto before [] xs).reverse

theorem insertReversed_perm (before : α → α → Bool) (x : α) (ys : List α) :
    (insertReversed before x ys).Perm (x :: ys) := by
  induction ys with
  | nil => exact .refl _
  | cons y ys ih =>
    unfold insertReversed
    split
    · exact (ih.cons y).trans (.swap x y ys)
    · exact .refl _

theorem sortOnto_perm (before : α → α → Bool) (done xs : List α) :
    (sortOnto before done xs).Perm (xs ++ done) := by
  induction xs generalizing done with
  | nil => exact .refl _
  | cons x xs ih =>
    exact (ih _).trans (((insertReversed_perm before x done).append_left xs).trans
      List.perm_middle)

theorem stableSort_perm (before : α → α → Bool) (xs : List α) :
    (stableSort before xs).Perm xs := by
  have h := sortOnto_perm before [] xs
  rw [List.append_nil] at h
  exact (List.reverse_perm _).trans h

end EntityQuery
