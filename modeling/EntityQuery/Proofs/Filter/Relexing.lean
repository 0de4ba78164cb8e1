import EntityQuery.Filter.Lexeme
import EntityQuery.Text.Quoted

/-!
# Lexemes in another place

A lexeme is cut in the same way whatever stood behind it in the text it comes from, as long as a
space, a closing parenthesis or a comma comes next: no class of lexemes matches across one of these
(`ends_of_whole`). `Whole` says of a text that it is one lexeme; all lexemes of a cut are whole,
and a quoted text is.
-/

namespace EntityQuery

open Text (Pattern)

namespace Text.Pattern

/-- Is this a character that no match has? -/
def avoids (c : Char) : Pattern → Bool
  | never => true
  | empty => true
  | set p => !p c
  | seq a b => a.avoids c && b.avoids c
  | alt a b => a.avoids c && b.avoids c
  | star a => a.avoids c

theorem not_mem_of_avoids {p : Pattern} {c : Char} {w : List Char} (hm : Matches p w)
    (h : p.avoids c = true) : c ∉ w := by
  induction hm with
  | empty => exact List.not_mem_nil
  | set hp =>
    rw [List.mem_singleton]
    rintro rfl
    simp [avoids, hp] at h
  | seq _ _ ihu ihv =>
    simp only [avoids, Bool.and_eq_true] at h
    exact List.not_mem_append (ihu h.1) (ihv h.2)
  | left _ ih =>
    simp only [avoids, Bool.and_eq_true] at h
    exact ih h.1
  | right _ ih =>
    simp only [avoids, Bool.and_eq_true] at h
    exact ih h.2
  | stop => exact List.not_mem_nil
  | more _ _ ihu ihv => exact List.not_mem_append (ihu h) (ihv h)

theorem not_matches_of_derivative {p : Pattern} {c : Char} (h : (p.derivative c).isNever = true)
    (w : List Char) : ¬ Matches p (c :: w) := by
  intro hm
  have hd := (matches_derivative p c w).2 hm
  rw [(isNever_iff _).1 h] at hd
  exact not_matches_never w hd

/-- Text behind the longest match does not matter, if no match reaches into it. -/
theorem longest?_append {p : Pattern} {w rest : List Char}
    (h : ∀ x, x ≠ [] → x <+: rest → ¬ Matches p (w ++ x)) :
    p.longest? (w ++ rest) = p.longest? w := by
  have hbeyond : ∀ n, w.length < n → n ≤ (w ++ rest).length →
      ¬ Matches p ((w ++ rest).take n) := by
    intro n hlt hle hm
    rw [List.length_append] at hle
    rw [List.take_append, List.take_of_length_le (by omega)] at hm
    refine h (rest.take (n - w.length)) (fun hnil => ?_) (List.take_prefix _ _) hm
    have := congrArg List.length hnil
    rw [List.length_take, List.length_nil] at this
    omega
  have htake : ∀ n, n ≤ w.length → (w ++ rest).take n = w.take n :=
    fun n hn => List.take_append_of_le_length hn
  apply Option.ext
  intro n
  rw [longest?_eq_some, longest?_eq_some]
  constructor
  · rintro ⟨hn, hm, hmax⟩
    have hw : n ≤ w.length := Nat.le_of_not_lt fun hlt => hbeyond n hlt hn hm
    refine ⟨hw, htake n hw ▸ hm, fun m hlt hle hmm => ?_⟩
    exact hmax m hlt (by rw [List.length_append]; omega) (htake m hle ▸ hmm)
  · rintro ⟨hw, hm, hmax⟩
    refine ⟨by rw [List.length_append]; omega, (htake n hw).symm ▸ hm, fun m hlt hle hmm => ?_⟩
    by_cases hmw : m ≤ w.length
    · exact hmax m hlt hmw (htake m hmw ▸ hmm)
    · exact hbeyond m (by omega) hle hmm

/-- A match at the front bounds the longest one from below. -/
theorem exists_longest? {p : Pattern} {cs : List Char} {m : Nat} (hm : m ≤ cs.length)
    (hmatch : Matches p (cs.take m)) : ∃ n, p.longest? cs = some n ∧ m ≤ n := by
  obtain ⟨n, hle, hn⟩ := exists_greatest hm hmatch
  exact ⟨n, (longest?_eq_some p cs n).2 hn, hle⟩

end Text.Pattern

namespace Lexeme

/-! ## The front of a text -/

theorem exists_better_left {a : Terminal × Nat} (b : Option (Terminal × Nat)) :
    ∃ m, better (some a) b = some m ∧ a.2 ≤ m.2 := by
  cases b with
  | none => exact ⟨a, rfl, Nat.le_refl _⟩
  | some b =>
    by_cases h : a.2 < b.2
    · exact ⟨b, by rw [better, if_pos h], Nat.le_of_lt h⟩
    · exact ⟨a, by rw [better, if_neg h], Nat.le_refl _⟩

theorem exists_better_right (a : Option (Terminal × Nat)) {b : Terminal × Nat} :
    ∃ m, better a (some b) = some m ∧ b.2 ≤ m.2 := by
  cases a with
  | none => exact ⟨b, rfl, Nat.le_refl _⟩
  | some a =>
    by_cases h : a.2 < b.2
    · exact ⟨b, by rw [better, if_pos h], Nat.le_refl _⟩
    · exact ⟨a, by rw [better, if_neg h], Nat.le_of_not_lt h⟩

/-- What wins is at least as long as everything it was compared with. -/
theorem foldl_better_max {cs : List Char} {classes : List (Terminal × Pattern)}
    {best : Option (Terminal × Nat)} {r : Terminal × Nat}
    (h : classes.foldl (fun best c => better best (candidate? cs c)) best = some r) :
    (∀ m ∈ best, m.2 ≤ r.2) ∧ ∀ k ∈ classes, ∀ m ∈ candidate? cs k, m.2 ≤ r.2 := by
  induction classes generalizing best with
  | nil =>
    refine ⟨fun m hm => ?_, fun k hk => absurd hk List.not_mem_nil⟩
    have hr : best = some r := h
    obtain rfl : m = r := Option.some.inj ((Option.mem_def.1 hm).symm.trans hr)
    exact Nat.le_refl _
  | cons k classes ih =>
    obtain ⟨hbest, hrest⟩ := ih h
    refine ⟨fun m hm => ?_, fun k' hk' m hm => ?_⟩
    · obtain ⟨m', hm', hle⟩ := exists_better_left (a := m) (candidate? cs k)
      rw [Option.mem_def.1 hm] at hbest
      exact Nat.le_trans hle (hbest m' hm')
    · rcases List.mem_cons.1 hk' with rfl | hk'
      · obtain ⟨m', hm', hle⟩ := exists_better_right best (b := m)
        have hbest : ∀ m ∈ better best (candidate? cs k'), m.2 ≤ r.2 := hbest
        rw [Option.mem_def.1 hm] at hbest
        exact Nat.le_trans hle (hbest m' hm')
      · exact hrest k' hk' m hm

/-- What wins is one of those that were compared. -/
theorem foldl_better_mem {cs : List Char} {classes : List (Terminal × Pattern)}
    {best : Option (Terminal × Nat)} {r : Terminal × Nat}
    (h : classes.foldl (fun best c => better best (candidate? cs c)) best = some r) :
    best = some r ∨ ∃ k ∈ classes, candidate? cs k = some r := by
  induction classes generalizing best with
  | nil => exact .inl h
  | cons k classes ih =>
    rcases ih h with hr | ⟨k', hk', hr⟩
    · rcases better_eq best (candidate? cs k) with heq | heq
      · exact .inl (heq ▸ hr)
      · exact .inr ⟨k, List.mem_cons_self, heq ▸ hr⟩
    · exact .inr ⟨k', List.mem_cons_of_mem _ hk', hr⟩

theorem candidate?_eq_some {cs : List Char} {k : Terminal × Pattern} {m : Terminal × Nat}
    (h : candidate? cs k = some m) : m.1 = k.1 ∧ k.2.longest? cs = some m.2 := by
  unfold candidate? at h
  split at h
  · obtain rfl := Option.some.inj h
    exact ⟨rfl, ‹_›⟩
  · nomatch h

/-- A lexeme at the front is the longest match of its class. -/
theorem exists_class_of_front? {cs : List Char} {t : Terminal} {n : Nat}
    (h : front? cs = some (t, n)) : ∃ p, (t, p) ∈ lexemeClasses ∧ p.longest? cs = some n := by
  rcases foldl_better_mem h with h | ⟨⟨t', p⟩, hk, h⟩
  · nomatch h
  · obtain ⟨ht, hn⟩ := candidate?_eq_some h
    have ht : t = t' := ht
    subst ht
    exact ⟨p, hk, hn⟩

/-- No class matches beyond a lexeme at the front. -/
theorem le_length_of_front? {cs : List Char} {t : Terminal} {n : Nat}
    (h : front? cs = some (t, n)) : n ≤ cs.length := by
  obtain ⟨p, -, hlongest⟩ := exists_class_of_front? h
  exact ((Pattern.longest?_eq_some _ _ _).1 hlongest).1

theorem length_le_of_front? {cs : List Char} {t : Terminal} {n m : Nat}
    (h : front? cs = some (t, n)) {k : Terminal × Pattern} (hk : k ∈ lexemeClasses)
    (hm : m ≤ cs.length) (hmatch : Pattern.Matches k.2 (cs.take m)) : m ≤ n := by
  obtain ⟨j, hj, hle⟩ := Pattern.exists_longest? hm hmatch
  cases j with
  | zero => omega
  | succ j =>
    have hcandidate : candidate? cs k = some (k.1, j + 1) := by rw [candidate?, hj]
    have hmax := (foldl_better_max h).2 k hk _ hcandidate
    exact Nat.le_trans hle hmax

/-- If no other class has a candidate, a class with one has the front. -/
theorem foldl_better_only {cs : List Char} {classes : List (Terminal × Pattern)} {t : Terminal}
    {n : Nat} (hother : ∀ k ∈ classes, k.1 ≠ t → candidate? cs k = none)
    (ht : ∀ k ∈ classes, k.1 = t → candidate? cs k = some (t, n))
    {best : Option (Terminal × Nat)}
    (h : best = some (t, n) ∨ best = none ∧ ∃ k ∈ classes, k.1 = t) :
    classes.foldl (fun best c => better best (candidate? cs c)) best = some (t, n) := by
  induction classes generalizing best with
  | nil =>
    rcases h with h | ⟨_, k, hk, _⟩
    · exact h
    · exact absurd hk List.not_mem_nil
  | cons k classes ih =>
    refine ih (fun k' hk' => hother k' (List.mem_cons_of_mem _ hk'))
      (fun k' hk' => ht k' (List.mem_cons_of_mem _ hk')) ?_
    show better best (candidate? cs k) = _ ∨ better best (candidate? cs k) = _ ∧ _
    by_cases hk : k.1 = t
    · rw [ht k List.mem_cons_self hk]
      left
      rcases h with rfl | ⟨rfl, _⟩
      · rw [better, if_neg (Nat.lt_irrefl n)]
      · rfl
    · rw [hother k List.mem_cons_self hk]
      rcases h with rfl | ⟨rfl, k', hk', heq⟩
      · exact .inl rfl
      · refine .inr ⟨rfl, k', (List.mem_cons.1 hk').resolve_left ?_, heq⟩
        rintro rfl
        exact hk heq

theorem foldl_better_congr {cs ds : List Char} {classes : List (Terminal × Pattern)}
    (h : ∀ k ∈ classes, candidate? cs k = candidate? ds k) (best : Option (Terminal × Nat)) :
    classes.foldl (fun best c => better best (candidate? cs c)) best =
      classes.foldl (fun best c => better best (candidate? ds c)) best := by
  induction classes generalizing best with
  | nil => rfl
  | cons k classes ih =>
    rw [List.foldl_cons, List.foldl_cons, h k List.mem_cons_self]
    exact ih (fun k' hk' => h k' (List.mem_cons_of_mem _ hk')) _

/-- No class matches the first part with a piece of the second part behind it. -/
def Ends (w rest : List Char) : Prop :=
  ∀ k ∈ lexemeClasses, ∀ x, x ≠ [] → x <+: rest → ¬ Pattern.Matches k.2 (w ++ x)

theorem front?_append {w rest : List Char} (h : Ends w rest) : front? (w ++ rest) = front? w :=
  foldl_better_congr (fun k hk => by
    rw [candidate?, candidate?, Pattern.longest?_append (h k hk)]) none

/-- Behind a lexeme at the front nothing is matched with it. -/
theorem ends_of_front? {w rest : List Char} {t : Terminal}
    (h : front? (w ++ rest) = some (t, w.length)) : Ends w rest := by
  rintro k hk x hx ⟨y, rfl⟩ hm
  have hlen : (w ++ x).length ≤ w.length := by
    refine length_le_of_front? h hk (by simp) ?_
    rwa [← List.append_assoc, List.take_left]
  rw [List.length_append] at hlen
  exact hx (List.length_eq_zero_iff.1 (by omega))

/-! ## Whole lexemes -/

/-- The text is one lexeme of this class. -/
structure Whole (t : Terminal) (w : List Char) : Prop where
  front : front? w = some (t, w.length)
  /-- Blanks in front would be skipped. -/
  head : ∀ c ∈ w.head?, Text.isBlank c = false

theorem whole_iff {t : Terminal} {w : List Char} :
    Whole t w ↔ front? w = some (t, w.length) ∧ w.head?.all (fun c => !Text.isBlank c) = true := by
  rw [Option.all_eq_true]
  simp only [Bool.not_eq_true']
  exact ⟨fun h => ⟨h.front, h.head⟩, fun h => ⟨h.1, h.2⟩⟩

instance (t : Terminal) (w : List Char) : Decidable (Whole t w) :=
  decidable_of_iff _ whole_iff.symm

/-- The characters that part lexemes wherever they stand outside of quotes. -/
def separators : List Char := [' ', ')', ',']

/-- Nothing, or a separator with something behind it. -/
def Separated (rest : List Char) : Prop := ∀ c ∈ rest.head?, c ∈ separators

theorem avoids_separators : ∀ k ∈ lexemeClasses,
    k.1 ∉ [.quoted, .leftParen, .rightParen, .comma] →
      separators.all (fun c => k.2.avoids c) = true := by
  decide

theorem exists_set_of_bracket {k : Terminal × Pattern} (hk : k ∈ lexemeClasses)
    (h : k.1 ∈ [Terminal.leftParen, .rightParen, .comma]) : ∃ p, k.2 = .set p := by
  revert k
  simp [lexemeClasses, keyword, Pattern.all]

theorem eq_quotedPattern {k : Terminal × Pattern} (hk : k ∈ lexemeClasses)
    (h : k.1 = .quoted) : k.2 = quotedPattern := by
  revert k
  simp [lexemeClasses]

/-- Only a quoted text begins with a quote, and only a parenthesis with one. -/
theorem derivative_opener : ∀ k ∈ lexemeClasses,
    ∀ o ∈ [(Terminal.quoted, '\''), (.leftParen, '(')], k.1 ≠ o.1 →
      (k.2.derivative o.2).isNever = true := by
  decide

theorem derivative_quote {k : Terminal × Pattern} (hk : k ∈ lexemeClasses) (h : k.1 ≠ .quoted) :
    (k.2.derivative '\'').isNever = true :=
  derivative_opener k hk (.quoted, '\'') (by simp) h

theorem derivative_leftParen {k : Terminal × Pattern} (hk : k ∈ lexemeClasses)
    (h : k.1 ≠ .leftParen) : (k.2.derivative '(').isNever = true :=
  derivative_opener k hk (.leftParen, '(') (by simp) h

/-! ## Quoted texts -/

/-- What stands between the quotes: a character, or a backslash with the one behind it. -/
def quotedItem : Pattern :=
  .alt (.set fun c => c != '\'' && c != '\\') (.seq (.char '\\') (.set (· != '\n')))

theorem matches_char {c : Char} {w : List Char} : Pattern.Matches (.char c) w ↔ w = [c] := by
  constructor
  · intro h
    cases h with
    | set h => rw [eq_of_beq h]
  · rintro rfl
    exact .set (beq_self_eq_true c)

theorem matches_quotedItem {w : List Char} :
    Pattern.Matches quotedItem w ↔
      (∃ c, w = [c] ∧ c ≠ '\'' ∧ c ≠ '\\') ∨ ∃ c, w = ['\\', c] ∧ c ≠ '\n' := by
  rw [quotedItem, Pattern.matches_alt_iff]
  refine or_congr ⟨fun h => ?_, ?_⟩ ⟨fun h => ?_, ?_⟩
  · cases h with
    | set h => exact ⟨_, rfl, by simpa using h⟩
  · rintro ⟨c, rfl, h⟩
    exact .set (by simpa using h)
  · obtain ⟨u, v, rfl, hu, hv⟩ := (Pattern.matches_seq_iff _ _ _).1 h
    cases hv with
    | set hc => exact ⟨_, by rw [matches_char.1 hu]; rfl, by simpa using hc⟩
  · rintro ⟨c, rfl, h⟩
    exact .seq (matches_char.2 rfl) (.set (by simpa using h))

theorem matches_quotedPattern {w : List Char} :
    Pattern.Matches quotedPattern w ↔
      ∃ u, w = '\'' :: (u ++ ['\'']) ∧ Pattern.Matches (.star quotedItem) u := by
  constructor
  · intro h
    obtain ⟨a, b, rfl, ha, hb⟩ := (Pattern.matches_seq_iff _ _ _).1 h
    obtain ⟨u, c, rfl, hu, hc⟩ := (Pattern.matches_seq_iff _ _ _).1 hb
    exact ⟨u, by rw [matches_char.1 ha, matches_char.1 hc]; rfl, hu⟩
  · rintro ⟨u, rfl, hu⟩
    exact .seq (u := ['\'']) (matches_char.2 rfl) (.seq hu (matches_char.2 rfl))

/-- The quote behind some items is not the first character of one more. -/
theorem not_matches_items_quote {u : List Char} (hu : Pattern.Matches (.star quotedItem) u)
    (v : List Char) : ¬ Pattern.Matches (.star quotedItem) (u ++ '\'' :: v) := by
  generalize hs : Pattern.star quotedItem = s at hu
  induction hu with
  | stop =>
    cases hs
    intro h
    obtain ⟨x, _, _, hx, _⟩ := (Pattern.matches_star_cons _ _ _).1 h
    rcases matches_quotedItem.1 hx with ⟨c, hc, hne, _⟩ | ⟨c, hc, _⟩
    · exact hne (List.cons.inj hc).1.symm
    · exact absurd (List.cons.inj hc).1 (by decide)
  | @more a _ u ha _ _ ih =>
    cases hs
    intro h
    rcases matches_quotedItem.1 ha with ⟨c, rfl, _, hslash⟩ | ⟨c, rfl, _⟩
    · obtain ⟨x, y, hxy, hx, hy⟩ := (Pattern.matches_star_cons _ _ _).1 h
      rcases matches_quotedItem.1 hx with ⟨d, hd, _⟩ | ⟨d, hd, _⟩
      · obtain ⟨_, rfl⟩ := List.cons.inj hd
        have hy' : u ++ '\'' :: v = y := hxy
        exact ih rfl (hy' ▸ hy)
      · exact hslash (List.cons.inj hd).1
    · obtain ⟨x, y, hxy, hx, hy⟩ := (Pattern.matches_star_cons _ _ _).1 h
      rcases matches_quotedItem.1 hx with ⟨d, hd, _, hslash⟩ | ⟨d, hd, _⟩
      · exact hslash (List.cons.inj hd).1.symm
      · obtain ⟨_, rfl⟩ := List.cons.inj hd
        have hy' : u ++ '\'' :: v = y := (List.cons.inj hxy).2
        exact ih rfl (hy' ▸ hy)
  | _ => nomatch hs

/-- A quoted text ends at its closing quote. -/
theorem eq_nil_of_matches_quoted {w x : List Char} (hw : Pattern.Matches quotedPattern w)
    (hx : Pattern.Matches quotedPattern (w ++ x)) : x = [] := by
  obtain ⟨u, rfl, hu⟩ := matches_quotedPattern.1 hw
  obtain ⟨v, hv, hv'⟩ := matches_quotedPattern.1 hx
  rcases List.eq_nil_or_concat x with rfl | ⟨y, c, rfl⟩
  · rfl
  · have hsplit : u ++ '\'' :: y ++ [c] = v ++ ['\''] := by simpa using hv
    obtain ⟨rfl, _⟩ := List.append_inj' hsplit rfl
    exact absurd hv' (not_matches_items_quote hu y)

/-- A lexeme with something behind it is not a quoted text. -/
theorem eq_nil_of_matches_quoted_append {t : Terminal} {p : Pattern} {w x : List Char}
    (hp : (t, p) ∈ lexemeClasses) (hw : Pattern.Matches p w) (hne : w ≠ [])
    (hx : Pattern.Matches quotedPattern (w ++ x)) : x = [] := by
  obtain ⟨d, v, rfl⟩ := List.exists_cons_of_ne_nil hne
  obtain ⟨u, hu, -⟩ := matches_quotedPattern.1 hx
  obtain ⟨rfl, -⟩ := List.cons.inj hu
  by_cases ht : t = .quoted
  · obtain rfl : p = quotedPattern := eq_quotedPattern hp ht
    exact eq_nil_of_matches_quoted hw hx
  · exact absurd hw (Pattern.not_matches_of_derivative (derivative_quote hp ht) v)

theorem matches_items_escapeQuotes (cs : List Char) :
    Pattern.Matches (.star quotedItem) (Text.escapeQuotes cs) := by
  induction cs with
  | nil => exact .stop
  | cons c cs ih =>
    unfold Text.escapeQuotes
    split
    · rename_i h
      refine .more (u := ['\\', c]) (matches_quotedItem.2 (.inr ⟨c, rfl, ?_⟩)) ih
      rcases h with rfl | rfl <;> decide
    · rename_i h
      refine .more (u := [c]) (matches_quotedItem.2 (.inl ⟨c, rfl, ?_, ?_⟩)) ih
      · exact fun hc => h (.inr hc)
      · exact fun hc => h (.inl hc)

theorem matches_quote (s : String) : Pattern.Matches quotedPattern (Text.quote s).toList := by
  rw [Text.quote, String.toList_ofList]
  exact matches_quotedPattern.2 ⟨_, rfl, matches_items_escapeQuotes _⟩

theorem candidate?_eq_none {cs : List Char} {k : Terminal × Pattern}
    (h : ∀ n, 0 < n → n ≤ cs.length → ¬ Pattern.Matches k.2 (cs.take n)) :
    candidate? cs k = none := by
  cases hc : candidate? cs k with
  | none => rfl
  | some m =>
    have hlongest := (Pattern.longest?_eq_some _ _ _).1 (candidate?_eq_some hc).2
    exact absurd hlongest.2.1 (h m.2 (candidate?_pos hc) hlongest.1)

/-- Whatever stands behind a quoted text, it is cut as one lexeme. -/
theorem front?_quoted {w : List Char} (hw : Pattern.Matches quotedPattern w) (rest : List Char) :
    front? (w ++ rest) = some (.quoted, w.length) := by
  obtain ⟨u, rfl, hu⟩ := matches_quotedPattern.1 hw
  have hends : ∀ x, x ≠ [] → x <+: rest →
      ¬ Pattern.Matches quotedPattern ('\'' :: (u ++ ['\'']) ++ x) :=
    fun x hx _ hm => hx (eq_nil_of_matches_quoted hw hm)
  refine foldl_better_only (fun k hk hne => ?_) (fun k hk heq => ?_)
    (.inr ⟨rfl, (.quoted, quotedPattern), by simp [lexemeClasses], rfl⟩)
  · refine candidate?_eq_none fun n hn _ => ?_
    obtain ⟨n, rfl⟩ := Nat.exists_eq_add_of_lt hn
    rw [Nat.zero_add, List.cons_append, List.take_succ_cons]
    exact Pattern.not_matches_of_derivative (derivative_quote hk hne) _
  · have hlongest := (Pattern.longest?_eq_some quotedPattern _ _).2
      ⟨Nat.le_refl _, by rwa [List.take_length], fun m hlt hle => absurd hle (Nat.not_le.2 hlt)⟩
    rw [candidate?, eq_quotedPattern hk heq, Pattern.longest?_append hends, hlongest, heq]
    rfl

theorem whole_quoted {w : List Char} (hw : Pattern.Matches quotedPattern w) : Whole .quoted w where
  front := by
    have h := front?_quoted hw []
    rwa [List.append_nil] at h
  head := by
    obtain ⟨u, rfl, _⟩ := matches_quotedPattern.1 hw
    rintro c ⟨⟩
    decide

theorem whole_quote (s : String) : Whole .quoted (Text.quote s).toList :=
  whole_quoted (matches_quote s)

/-! ## Lexemes in front of separators -/

/-- A lexeme stays the same in front of a separator. -/
theorem ends_of_whole {t : Terminal} {w rest : List Char} (h : Whole t w)
    (hs : Separated rest) : Ends w rest := by
  rintro k hk (_ | ⟨c, x⟩) hx hpre hm
  · exact hx rfl
  have hc : c ∈ separators := by
    obtain ⟨y, rfl⟩ := hpre
    exact hs c rfl
  have hpos : 0 < w.length := front?_pos h.front
  by_cases hquoted : k.1 = .quoted
  · rw [eq_quotedPattern hk hquoted] at hm
    obtain ⟨p, hp, hlongest⟩ := exists_class_of_front? h.front
    have hw : Pattern.Matches p w := by
      have hmatch := ((Pattern.longest?_eq_some _ _ _).1 hlongest).2.1
      rwa [List.take_length] at hmatch
    exact hx (eq_nil_of_matches_quoted_append hp hw (List.ne_nil_of_length_pos hpos) hm)
  by_cases hbracket : k.1 ∈ [Terminal.leftParen, .rightParen, .comma]
  · obtain ⟨p, hp⟩ := exists_set_of_bracket hk hbracket
    rw [hp] at hm
    have hlen : (w ++ c :: x).length = 1 := by
      generalize w ++ c :: x = v at hm
      cases hm
      rfl
    rw [List.length_append, List.length_cons] at hlen
    omega
  · have hnot : k.1 ∉ [Terminal.quoted, .leftParen, .rightParen, .comma] :=
      fun hmem => (List.mem_cons.1 hmem).elim hquoted hbracket
    have havoids := List.all_eq_true.1 (avoids_separators k hk hnot) c hc
    exact Pattern.not_mem_of_avoids hm havoids (by simp)

theorem ends_leftParen (rest : List Char) : Ends ['('] rest := by
  rintro k hk (_ | ⟨c, x⟩) hx _ hm
  · exact hx rfl
  by_cases h : k.1 = .leftParen
  · obtain ⟨p, hp⟩ := exists_set_of_bracket hk (by simp [h])
    rw [hp] at hm
    cases hm
  · exact Pattern.not_matches_of_derivative (derivative_leftParen hk h) _ hm

theorem front?_append_of_whole {t : Terminal} {w rest : List Char} (h : Whole t w)
    (hs : Separated rest) : front? (w ++ rest) = some (t, w.length) := by
  rw [front?_append (ends_of_whole h hs), h.front]

theorem whole_of_front? {cs : List Char} {c : Char} {t : Terminal} {n : Nat}
    (hc : Text.isBlank c = false) (h : front? (c :: cs) = some (t, n)) :
    Whole t ((c :: cs).take n) := by
  have hn := le_length_of_front? h
  have hlen : ((c :: cs).take n).length = n := by rw [List.length_take]; omega
  have hsplit : (c :: cs).take n ++ (c :: cs).drop n = c :: cs := List.take_append_drop _ _
  have hfront : front? ((c :: cs).take n ++ (c :: cs).drop n) =
      some (t, ((c :: cs).take n).length) := by rw [hsplit, h, hlen]
  refine ⟨?_, ?_⟩
  · rw [← front?_append (ends_of_front? hfront), hfront]
  · obtain ⟨n, rfl⟩ := Nat.exists_eq_add_of_lt (front?_pos h)
    rw [Nat.zero_add, List.take_succ_cons]
    rintro d ⟨⟩
    exact hc

end Lexeme

/-! ## The steps of a cut -/

namespace Cut

/-- A cut with one more lexeme in front. -/
def cons (l : Lexeme) (c : Cut) : Cut := ⟨l :: c.lexemes, c.stuck⟩

theorem ofChars_blank {c : Char} (hc : Text.isBlank c = true) (start : Nat) (rest : List Char) :
    ofChars start (c :: rest) = ofChars (start + c.utf8Size) rest := by
  rw [ofChars, if_pos hc]

theorem ofChars_stuck {c : Char} {rest : List Char} (hc : Text.isBlank c = false)
    (h : Lexeme.front? (c :: rest) = none) (start : Nat) :
    ofChars start (c :: rest) = ⟨[], some (start, c :: rest)⟩ := by
  rw [ofChars, if_neg (Bool.eq_false_iff.1 hc)]
  split
  · rfl
  · rename_i hsome
    rw [h] at hsome
    cases hsome

theorem ofChars_lexeme {c : Char} {rest : List Char} {t : Terminal} {n start : Nat} {l : Lexeme}
    (hc : Text.isBlank c = false) (h : Lexeme.front? (c :: rest) = some (t, n))
    (hl : l = ⟨t, (c :: rest).take n, start⟩) :
    ofChars start (c :: rest) = (ofChars l.stop ((c :: rest).drop n)).cons l := by
  subst hl
  rw [ofChars, if_neg (Bool.eq_false_iff.1 hc)]
  split
  · rename_i hnone
    rw [h] at hnone
    cases hnone
  · rename_i hsome
    rw [h] at hsome
    obtain ⟨rfl, rfl⟩ := Prod.mk.inj (Option.some.inj hsome)
    rfl

/-- The text of the lexeme in front, where it is known. -/
theorem ofChars_append {t : Terminal} {w rest : List Char} {start : Nat} {l : Lexeme}
    (hhead : ∀ c ∈ w.head?, Text.isBlank c = false)
    (h : Lexeme.front? (w ++ rest) = some (t, w.length)) (hl : l = ⟨t, w, start⟩) :
    ofChars start (w ++ rest) = (ofChars l.stop rest).cons l := by
  have htake : (w ++ rest).take w.length = w := List.take_left
  have hdrop : (w ++ rest).drop w.length = rest := List.drop_left
  obtain ⟨c, w, rfl⟩ := List.exists_cons_of_length_pos (Lexeme.front?_pos h)
  rw [List.cons_append] at h htake hdrop ⊢
  rw [← htake] at hl
  rw [ofChars_lexeme (hhead c rfl) h hl, hdrop]

end Cut

/-- Every lexeme of a cut is whole. -/
theorem Cut.whole_of_mem {start : Nat} {cs : List Char} {l : Lexeme}
    (hl : l ∈ (Cut.ofChars start cs).lexemes) : Lexeme.Whole l.terminal l.text := by
  fun_induction Cut.ofChars start cs with
  | case1 => exact absurd hl List.not_mem_nil
  | case2 _ _ _ _ ih => exact ih hl
  | case3 => exact absurd hl List.not_mem_nil
  | case4 start c rest hblank t n h l' after ih =>
    rcases List.mem_cons.1 hl with rfl | hl
    · exact Lexeme.whole_of_front? (Bool.eq_false_iff.2 hblank) h
    · exact ih hl

/-- Every lexeme takes a character. -/
theorem Cut.length_lexemes_le (start : Nat) (cs : List Char) :
    (Cut.ofChars start cs).lexemes.length ≤ cs.length := by
  fun_induction Cut.ofChars start cs with
  | case1 => exact Nat.le_refl 0
  | case2 start c rest hblank ih => exact Nat.le_succ_of_le ih
  | case3 => exact Nat.zero_le _
  | case4 start c rest hblank t n hfront l after ih =>
    have hpos := Lexeme.front?_pos hfront
    have hafter : after.lexemes.length ≤ ((c :: rest).drop n).length := ih
    rw [List.length_drop, List.length_cons] at hafter
    rw [List.length_cons, List.length_cons]
    omega

end EntityQuery
