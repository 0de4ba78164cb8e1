/-!
# Patterns

A pattern is a regular expression over characters. `Pattern.Matches` says which texts it stands
for, and `Pattern.longest?` finds the longest match at the front of a text, one derivative per
character: the derivative by `c` matches what may follow a `c`. `matches_derivative` and
`longest?_eq_some` say that the search finds exactly the longest match.
-/

namespace EntityQuery.Text

inductive Pattern where
  /-- Nothing matches. -/
  | never
  /-- The empty text alone. -/
  | empty
  /-- One character of a class. -/
  | set (p : Char → Bool)
  | seq (a b : Pattern)
  | alt (a b : Pattern)
  /-- Any number of repetitions, none included. -/
  | star (a : Pattern)

namespace Pattern

/-- The texts that a pattern stands for. -/
inductive Matches : Pattern → List Char → Prop where
  | empty : Matches .empty []
  | set {p : Char → Bool} {c : Char} (h : p c = true) : Matches (.set p) [c]
  | seq {a b : Pattern} {u v : List Char} (hu : Matches a u) (hv : Matches b v) :
      Matches (.seq a b) (u ++ v)
  | left {a b : Pattern} {u : List Char} (h : Matches a u) : Matches (.alt a b) u
  | right {a b : Pattern} {u : List Char} (h : Matches b u) : Matches (.alt a b) u
  | stop {a : Pattern} : Matches (.star a) []
  | more {a : Pattern} {u v : List Char} (hu : Matches a u) (hv : Matches (.star a) v) :
      Matches (.star a) (u ++ v)

/-! ## Building patterns -/

def char (c : Char) : Pattern := set (· == c)

/-- The patterns of a list one after another. -/
def all : List Pattern → Pattern
  | [] => empty
  | [p] => p
  | p :: ps => seq p (all ps)

def opt (p : Pattern) : Pattern := alt p empty

def plus (p : Pattern) : Pattern := seq p (star p)

/-- Exactly `n` repetitions. -/
def times (n : Nat) (p : Pattern) : Pattern := all (List.replicate n p)

/-! ## Matching -/

def nullable : Pattern → Bool
  | never | set _ => false
  | empty | star _ => true
  | seq a b => a.nullable && b.nullable
  | alt a b => a.nullable || b.nullable

/-- A sequence, with the trivial cases simplified. -/
def andThen : Pattern → Pattern → Pattern
  | never, _ => never
  | empty, b => b
  | a, b => seq a b

/-- A choice, with the trivial cases simplified. -/
def orElse : Pattern → Pattern → Pattern
  | never, b => b
  | a, never => a
  | a, b => alt a b

/-- What may follow a `c` at the front of a match. -/
def derivative (c : Char) : Pattern → Pattern
  | never | empty => never
  | set p => if p c then empty else never
  | seq a b =>
    if a.nullable then orElse (andThen (a.derivative c) b) (b.derivative c)
    else andThen (a.derivative c) b
  | alt a b => orElse (a.derivative c) (b.derivative c)
  | star a => andThen (a.derivative c) (star a)

/-- Is this the pattern that nothing matches? -/
def isNever : Pattern → Bool
  | never => true
  | _ => false

/-- The length of the longest match at the front. -/
def longest? (p : Pattern) : List Char → Option Nat
  | [] => if p.nullable then some 0 else none
  | c :: cs =>
    let d := p.derivative c
    match if d.isNever then none else d.longest? cs with
    | some n => some (n + 1)
    | none => if p.nullable then some 0 else none

/-! ## The search finds the longest match -/

theorem nullable_iff (p : Pattern) : p.nullable = true ↔ Matches p [] := by
  induction p with
  | never => exact ⟨fun h => (nomatch h), fun h => (nomatch h)⟩
  | empty => exact ⟨fun _ => .empty, fun _ => rfl⟩
  | set p => exact ⟨fun h => (nomatch h), fun h => (nomatch h)⟩
  | seq a b iha ihb =>
    simp only [nullable, Bool.and_eq_true, iha, ihb]
    constructor
    · exact fun ⟨ha, hb⟩ => .seq ha hb
    · intro h
      generalize hw : ([] : List Char) = w at h
      cases h with
      | seq hu hv =>
        obtain ⟨rfl, rfl⟩ := List.append_eq_nil_iff.1 hw.symm
        exact ⟨hu, hv⟩
  | alt a b iha ihb =>
    simp only [nullable, Bool.or_eq_true, iha, ihb]
    constructor
    · rintro (h | h)
      · exact .left h
      · exact .right h
    · intro h
      cases h with
      | left h => exact .inl h
      | right h => exact .inr h
  | star a _ => exact ⟨fun _ => .stop, fun _ => rfl⟩

theorem matches_seq_iff (a b : Pattern) (w : List Char) :
    Matches (.seq a b) w ↔ ∃ u v, w = u ++ v ∧ Matches a u ∧ Matches b v := by
  constructor
  · intro h
    cases h with
    | seq hu hv => exact ⟨_, _, rfl, hu, hv⟩
  · rintro ⟨u, v, rfl, hu, hv⟩
    exact .seq hu hv

theorem matches_alt_iff (a b : Pattern) (w : List Char) :
    Matches (.alt a b) w ↔ Matches a w ∨ Matches b w := by
  constructor
  · intro h
    cases h with
    | left h => exact .inl h
    | right h => exact .inr h
  · rintro (h | h)
    · exact .left h
    · exact .right h

theorem not_matches_never (w : List Char) : ¬ Matches .never w := fun h => nomatch h

theorem matches_empty_iff (w : List Char) : Matches .empty w ↔ w = [] :=
  ⟨fun h => by cases h; rfl, fun h => h ▸ .empty⟩

theorem matches_andThen (a b : Pattern) (w : List Char) :
    Matches (andThen a b) w ↔ Matches (.seq a b) w := by
  unfold andThen
  split
  · simp [matches_seq_iff, not_matches_never]
  · rw [matches_seq_iff]
    constructor
    · exact fun h => ⟨[], w, rfl, .empty, h⟩
    · rintro ⟨u, v, rfl, hu, hv⟩
      rw [(matches_empty_iff u).1 hu]
      exact hv
  · rfl

theorem matches_orElse (a b : Pattern) (w : List Char) :
    Matches (orElse a b) w ↔ Matches (.alt a b) w := by
  unfold orElse
  split
  · simp [matches_alt_iff, not_matches_never]
  · simp [matches_alt_iff, not_matches_never]
  · rfl

/-- A match of a sequence that starts with `c` takes it from the first part, or from the second
when the first part is empty. -/
theorem matches_seq_cons (a b : Pattern) (c : Char) (w : List Char) :
    Matches (.seq a b) (c :: w) ↔
      (∃ u v, w = u ++ v ∧ Matches a (c :: u) ∧ Matches b v) ∨
      (Matches a [] ∧ Matches b (c :: w)) := by
  rw [matches_seq_iff]
  constructor
  · rintro ⟨u, v, hw, hu, hv⟩
    cases u with
    | nil => exact .inr ⟨hu, by simpa [hw] using hv⟩
    | cons d u =>
      obtain ⟨rfl, rfl⟩ := List.cons.inj hw
      exact .inl ⟨u, v, rfl, hu, hv⟩
  · rintro (⟨u, v, rfl, hu, hv⟩ | ⟨hu, hv⟩)
    · exact ⟨c :: u, v, rfl, hu, hv⟩
    · exact ⟨[], c :: w, rfl, hu, hv⟩

theorem matches_star_cons (a : Pattern) (c : Char) (w : List Char) :
    Matches (.star a) (c :: w) ↔
      ∃ u v, w = u ++ v ∧ Matches a (c :: u) ∧ Matches (.star a) v := by
  constructor
  · intro h
    generalize hs : Pattern.star a = s at h
    generalize hcw : c :: w = cw at h
    induction h with
    | @more _ u v hu hv _ ih2 =>
      cases hs
      cases u with
      | nil => exact ih2 rfl hcw
      | cons d u =>
        obtain ⟨rfl, rfl⟩ := List.cons.inj hcw
        exact ⟨u, v, rfl, hu, hv⟩
    | stop => cases hcw
    | _ => cases hs
  · rintro ⟨u, v, rfl, hu, hv⟩
    exact .more (u := c :: u) hu hv

theorem matches_derivative (p : Pattern) (c : Char) (w : List Char) :
    Matches (p.derivative c) w ↔ Matches p (c :: w) := by
  induction p generalizing w with
  | never => simp [derivative, not_matches_never]
  | empty => simp [derivative, not_matches_never, matches_empty_iff]
  | set p =>
    simp only [derivative]
    split
    · rename_i h
      rw [matches_empty_iff]
      exact ⟨fun e => e ▸ .set h, fun m => by cases m; rfl⟩
    · rename_i h
      exact ⟨fun m => absurd m (not_matches_never w), fun m => by cases m; exact absurd ‹_› h⟩
  | seq a b iha ihb =>
    simp only [derivative]
    rw [matches_seq_cons]
    split
    · rename_i h
      rw [matches_orElse, matches_alt_iff, matches_andThen, matches_seq_iff, ihb]
      simp only [iha, (nullable_iff a).1 h, true_and]
    · rename_i h
      have h' : ¬ Matches a [] := fun m => h ((nullable_iff a).2 m)
      rw [matches_andThen, matches_seq_iff]
      simp only [iha, h', false_and, or_false]
  | alt a b iha ihb => simp only [derivative, matches_orElse, matches_alt_iff, iha, ihb]
  | star a iha =>
    simp only [derivative, matches_andThen, matches_seq_iff, iha, matches_star_cons]

theorem isNever_iff (p : Pattern) : p.isNever = true ↔ p = .never := by
  cases p <;> simp [isNever]

/-- Among the matches at the front there is a longest one. -/
theorem exists_greatest {p : Pattern} {cs : List Char} {m : Nat} (hm : m ≤ cs.length)
    (hmatch : Matches p (cs.take m)) :
    ∃ n, m ≤ n ∧ n ≤ cs.length ∧ Matches p (cs.take n) ∧
      ∀ j, n < j → j ≤ cs.length → ¬ Matches p (cs.take j) := by
  generalize hd : cs.length - m = d
  induction d using Nat.strongRecOn generalizing m with
  | ind d ih =>
    by_cases hlonger : ∃ j, m < j ∧ j ≤ cs.length ∧ Matches p (cs.take j)
    · obtain ⟨j, hlt, hj, hmatch⟩ := hlonger
      obtain ⟨n, hle, hn⟩ := ih (cs.length - j) (by omega) hj hmatch rfl
      exact ⟨n, by omega, hn⟩
    · exact ⟨m, Nat.le_refl m, hm, hmatch, fun j hlt hj hmj => hlonger ⟨j, hlt, hj, hmj⟩⟩

theorem longest?_never (cs : List Char) : never.longest? cs = none := by
  cases cs <;> rfl

/-- The search goes on behind the first character, and falls back to the empty match. -/
theorem longest?_cons (p : Pattern) (c : Char) (cs : List Char) :
    p.longest? (c :: cs) =
      match (p.derivative c).longest? cs with
      | some n => some (n + 1)
      | none => if p.nullable then some 0 else none := by
  have hskip : (if (p.derivative c).isNever then none else (p.derivative c).longest? cs) =
      (p.derivative c).longest? cs := by
    by_cases h : (p.derivative c).isNever = true
    · rw [if_pos h, (isNever_iff _).1 h, longest?_never]
    · rw [if_neg h]
  simp only [longest?, hskip]

theorem matches_take_succ (p : Pattern) (c : Char) (cs : List Char) (n : Nat) :
    Matches p ((c :: cs).take (n + 1)) ↔ Matches (p.derivative c) (cs.take n) := by
  rw [List.take_succ_cons, matches_derivative]

/-- The greatest length of a match at the front, if there is one. -/
theorem longest?_eq_some (p : Pattern) (cs : List Char) (n : Nat) :
    p.longest? cs = some n ↔
      n ≤ cs.length ∧ Matches p (cs.take n) ∧
        ∀ m, n < m → m ≤ cs.length → ¬ Matches p (cs.take m) := by
  induction cs generalizing p n with
  | nil =>
    simp only [longest?, List.take_nil, List.length_nil, Nat.le_zero]
    by_cases h : p.nullable = true
    · rw [if_pos h, Option.some.injEq]
      constructor
      · rintro rfl
        exact ⟨rfl, (nullable_iff p).1 h, fun m h1 h2 => by omega⟩
      · exact fun ⟨h, _⟩ => h.symm
    · rw [if_neg h]
      exact ⟨fun e => (nomatch e), fun ⟨_, m, _⟩ => absurd ((nullable_iff p).2 m) h⟩
  | cons c cs ih =>
    rw [longest?_cons, List.length_cons]
    cases hd : (p.derivative c).longest? cs with
    | some k =>
      obtain ⟨hk, hmatch, hmax⟩ := (ih _ k).1 hd
      have hmatch' := (matches_take_succ p c cs k).2 hmatch
      have hmax' : ∀ m, k + 1 < m → m ≤ cs.length + 1 → ¬ Matches p ((c :: cs).take m) := by
        intro m hlt hle hm
        obtain ⟨m, rfl⟩ : ∃ j, m = j + 1 := ⟨m - 1, by omega⟩
        exact hmax m (by omega) (by omega) ((matches_take_succ p c cs m).1 hm)
      rw [Option.some.injEq]
      constructor
      · rintro rfl
        exact ⟨by omega, hmatch', hmax'⟩
      · rintro ⟨hle, hm, hgreatest⟩
        apply Nat.le_antisymm
        · exact Nat.le_of_not_lt fun hlt => hgreatest (k + 1) hlt (by omega) hmatch'
        · exact Nat.le_of_not_lt fun hlt => hmax' n hlt hle hm
    | none =>
      have hnone : ∀ m, 0 < m → m ≤ cs.length + 1 → ¬ Matches p ((c :: cs).take m) := by
        intro m hpos hle hm
        obtain ⟨m, rfl⟩ : ∃ j, m = j + 1 := ⟨m - 1, by omega⟩
        obtain ⟨k, -, hk⟩ := exists_greatest (by omega) ((matches_take_succ p c cs m).1 hm)
        rw [(ih _ k).2 hk] at hd
        cases hd
      show (if p.nullable then some 0 else none) = some n ↔ _
      by_cases h : p.nullable = true
      · rw [if_pos h, Option.some.injEq]
        constructor
        · rintro rfl
          exact ⟨Nat.zero_le _, (nullable_iff p).1 h, hnone⟩
        · rintro ⟨hle, hm, _⟩
          exact (Nat.eq_zero_of_not_pos fun hpos => hnone n hpos hle hm).symm
      · rw [if_neg h]
        refine ⟨fun e => (nomatch e), ?_⟩
        rintro ⟨hle, hm, _⟩
        have hzero : n = 0 := Nat.eq_zero_of_not_pos fun hpos => hnone n hpos hle hm
        rw [hzero] at hm
        exact absurd ((nullable_iff p).2 hm) h

end Pattern

end EntityQuery.Text
