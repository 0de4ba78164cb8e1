import EntityQuery.Proofs.Filter.Relexing

/-!
# Classes of lexemes apart

Every text is a lexeme of at most one class, but for keywords, which are names as well. `kindOf`
tells the class of a lexeme from a few of its characters; `kindOf_of_matches` says that a class
that matches a text is the one that `kindOf` tells, or that of names when this is a keyword. So
among the longest matches at one place there is never a choice but between a keyword and a name.
-/

namespace EntityQuery

open Text (Pattern)

namespace Terminal

/-- The keywords that are spelled like names. -/
def isKeyword : Terminal → Bool
  | andWord | betweenWord | falseWord | inWord | isWord | notWord | nullWord | orWord
  | trueWord => true
  | _ => false

/-- Is there only one lexeme of the class, up to the case of its letters? -/
def isFixed : Terminal → Bool
  | dateTime | guid | name | number | quoted => false
  | _ => true

end Terminal

namespace Text.Pattern

theorem matches_times_set {p : Char → Bool} {n : Nat} {w : List Char}
    (h : Matches (times n (set p)) w) : w.length = n ∧ ∀ c ∈ w, p c = true := by
  have hone : ∀ {v : List Char}, Matches (set p) v → ∃ c, v = [c] ∧ p c = true := by
    rintro v ⟨⟩
    exact ⟨_, rfl, ‹_›⟩
  induction n generalizing w with
  | zero =>
    obtain rfl := (matches_empty_iff w).1 h
    exact ⟨rfl, List.forall_mem_nil _⟩
  | succ n ih =>
    cases n with
    | zero =>
      obtain ⟨c, rfl, hc⟩ := hone h
      exact ⟨rfl, by simpa using hc⟩
    | succ n =>
      obtain ⟨u, v, rfl, hu, hv⟩ := (matches_seq_iff _ _ _).1 h
      obtain ⟨c, rfl, hc⟩ := hone hu
      obtain ⟨hlen, hall⟩ := ih hv
      exact ⟨by simp [hlen], by simpa using ⟨hc, hall⟩⟩

end Text.Pattern

namespace Lexeme

/-! ## Words in any mixture of cases -/

/-- A letter in lower case, whichever of its forms it has. -/
def fold (c : Char) : Char :=
  if c = '\u017f' then 's' else if c = '\u212a' then 'k' else c.toLower

/-- A character in lower case in the one form that keywords are spelled with. -/
def isPlain (c : Char) : Bool := c.toLower == c && c != '\u017f' && c != '\u212a'

theorem fold_of_sameLetter {a c : Char} (ha : isPlain a = true) (h : sameLetter a c = true) :
    fold c = a := by
  simp only [isPlain, Bool.and_eq_true, beq_iff_eq, bne_iff_ne] at ha
  obtain ⟨⟨hlower, hs⟩, hk⟩ := ha
  have hsLower : ('\u017f' : Char).toLower = '\u017f' := by decide
  have hkLower : ('\u212a' : Char).toLower = '\u212a' := by decide
  simp only [sameLetter, hlower, Bool.or_eq_true, Bool.and_eq_true, beq_iff_eq] at h
  unfold fold
  split
  · rename_i hc
    subst hc
    rcases h with (h | h) | h
    · exact absurd (h.trans hsLower) hs
    · exact h.1.symm
    · exact absurd h.2 (by decide)
  · rename_i hns
    split
    · rename_i hc
      subst hc
      rcases h with (h | h) | h
      · exact absurd (h.trans hkLower) hk
      · exact absurd h.2 hns
      · exact h.1.symm
    · rename_i hnk
      rcases h with (h | h) | h
      · exact h.symm
      · exact absurd h.2 hns
      · exact absurd h.2 hnk

theorem fold_of_matches_letters {as w : List Char} (has : as.all isPlain = true)
    (h : Pattern.Matches (Pattern.all (as.map fun a => Pattern.set (sameLetter a))) w) :
    w.map fold = as := by
  have hone : ∀ {a : Char} {v : List Char}, isPlain a = true →
      Pattern.Matches (.set (sameLetter a)) v → v.map fold = [a] := by
    rintro a v ha ⟨⟩
    rw [List.map_singleton, fold_of_sameLetter ha ‹_›]
  induction as generalizing w with
  | nil =>
    obtain rfl := (Pattern.matches_empty_iff w).1 h
    rfl
  | cons a as ih =>
    rw [List.all_cons, Bool.and_eq_true] at has
    cases as with
    | nil => exact hone has.1 h
    | cons b as =>
      obtain ⟨u, v, rfl, hu, hv⟩ := (Pattern.matches_seq_iff _ _ _).1 h
      rw [List.map_append, hone has.1 hu, ih has.2 hv]
      rfl

theorem eq_keyword_of_fixed {k : Terminal × Pattern} (hk : k ∈ lexemeClasses)
    (h : k.1.isFixed = true) : k.2 = keyword k.1.description := by
  revert k
  simp [lexemeClasses, Terminal.isFixed, Terminal.description, Comparison.symbol]

/-- What fixed classes begin with that are not keywords. -/
def signs : List Char := ['=', '!', '>', '<', '(', ')', ',', '@']

/-- Fixed classes are spelled in lower case, and only keywords begin with a letter. -/
theorem spelling : ∀ k ∈ lexemeClasses, k.1.isFixed = true →
    k.1.description.toList.all isPlain = true ∧
      k.1.description.toList.head?.all
        (fun c => k.1.isKeyword && c.isLower || signs.contains c) = true := by
  decide

/-- A lexeme of a fixed class is the text of the class, up to case. -/
theorem fold_of_matches_fixed {k : Terminal × Pattern} {w : List Char} (hk : k ∈ lexemeClasses)
    (h : k.1.isFixed = true) (hm : Pattern.Matches k.2 w) :
    w.map fold = k.1.description.toList := by
  rw [eq_keyword_of_fixed hk h, keyword] at hm
  exact fold_of_matches_letters (spelling k hk h).1 hm

/-! ## Shapes -/

theorem not_mem_hyphen : ∀ k ∈ lexemeClasses, (k.1.isFixed || k.1 == .name) = true →
    k.2.avoids '-' = true := by
  decide

theorem matches_namePattern {w : List Char} (h : Pattern.Matches namePattern w) :
    ∃ c v, w = c :: v ∧ (c.isAlpha || c == '_') = true := by
  obtain ⟨u, v, rfl, hu, -⟩ := (Pattern.matches_seq_iff _ _ _).1 h
  cases hu with
  | set hc => exact ⟨_, v, rfl, hc⟩

theorem matches_numberPattern {w : List Char} (h : Pattern.Matches numberPattern w) :
    ∃ c v, w = c :: v ∧ (c.isDigit || c == '-') = true ∧ '-' ∉ v := by
  obtain ⟨s, d, rfl, hs, hd⟩ := (Pattern.matches_seq_iff _ _ _).1 h
  have hplain : '-' ∉ d := Pattern.not_mem_of_avoids hd (by decide)
  rcases (Pattern.matches_alt_iff _ _ _).1 hs with hs | hs
  · exact ⟨'-', d, by rw [matches_char.1 hs]; rfl, rfl, hplain⟩
  · obtain rfl := (Pattern.matches_empty_iff _).1 hs
    obtain ⟨u, f, rfl, hu, -⟩ := (Pattern.matches_seq_iff _ _ _).1 hd
    obtain ⟨a, b, rfl, ha, -⟩ := (Pattern.matches_seq_iff _ _ _).1 hu
    cases ha with
    | set hc =>
      refine ⟨_, b ++ f, rfl, ?_, fun hmem => hplain (List.mem_cons_of_mem _ hmem)⟩
      rw [hc, Bool.true_or]

theorem getElem?_hyphen {y rest : List Char} {n : Nat} (h : y.length = n) :
    (y ++ '-' :: rest)[n]? = some '-' := by
  rw [← h, List.getElem?_append_right (Nat.le_refl _), Nat.sub_self]
  rfl

theorem matches_dateTimePattern {w : List Char} (h : Pattern.Matches dateTimePattern w) :
    w[4]? = some '-' := by
  obtain ⟨y, v, rfl, hy, hv⟩ := (Pattern.matches_seq_iff _ _ _).1 h
  obtain ⟨a, b, rfl, ha, -⟩ := (Pattern.matches_seq_iff _ _ _).1 hv
  rw [matches_char.1 ha]
  exact getElem?_hyphen (Pattern.matches_times_set hy).1

theorem matches_guidPattern {w : List Char} (h : Pattern.Matches guidPattern w) :
    w[4]? ≠ some '-' ∧ w[8]? = some '-' := by
  obtain ⟨y, v, rfl, hy, hv⟩ := (Pattern.matches_seq_iff _ _ _).1 h
  obtain ⟨a, b, rfl, ha, -⟩ := (Pattern.matches_seq_iff _ _ _).1 hv
  obtain ⟨hlen, hhex⟩ := Pattern.matches_times_set hy
  rw [matches_char.1 ha]
  refine ⟨fun h4 => ?_, getElem?_hyphen hlen⟩
  rw [List.getElem?_append_left (by omega)] at h4
  exact absurd (hhex '-' (List.mem_of_getElem? h4)) (by decide)

/-! ## The class of a text -/

/-- The class of a text that is a lexeme, keywords not taken for names. -/
def kindOf (w : List Char) : Terminal :=
  if w.head? = some '\'' then .quoted
  else if w[4]? = some '-' then .dateTime
  else if w[8]? = some '-' then .guid
  else match lexemeClasses.find? fun k => k.1.isFixed && k.1.description.toList == w.map fold with
    | some k => k.1
    | none => if w.head?.any fun c => c.isDigit || c == '-' then .number else .name

theorem class_cases {k : Terminal × Pattern} (hk : k ∈ lexemeClasses) :
    k.1.isFixed = true ∨ k = (.name, namePattern) ∨ k = (.number, numberPattern) ∨
      k = (.dateTime, dateTimePattern) ∨ k = (.guid, guidPattern) ∨
      k = (.quoted, quotedPattern) := by
  revert k
  simp [lexemeClasses, Terminal.isFixed]

/-- The texts of fixed classes are not the same. -/
theorem fixed_injective : ∀ k ∈ lexemeClasses, ∀ j ∈ lexemeClasses,
    k.1.isFixed = true → j.1.isFixed = true →
      k.1.description.toList = j.1.description.toList → k.1 = j.1 := by
  decide

theorem head?_ne_quote {k : Terminal × Pattern} {w : List Char} (hk : k ∈ lexemeClasses)
    (h : k.1 ≠ .quoted) (hm : Pattern.Matches k.2 w) : w.head? ≠ some '\'' := by
  intro hhead
  obtain ⟨v, rfl⟩ := List.head?_eq_some_iff.1 hhead
  exact Pattern.not_matches_of_derivative (derivative_quote hk h) v hm

theorem getElem?_ne_hyphen {w : List Char} (h : '-' ∉ w) (n : Nat) : w[n]? ≠ some '-' :=
  fun hn => h (List.mem_of_getElem? hn)

/-- What `kindOf` looks for among the fixed classes. -/
theorem find?_fixed {w : List Char} {k : Terminal × Pattern}
    (h : lexemeClasses.find? (fun k => k.1.isFixed && k.1.description.toList == w.map fold) =
      some k) :
    k ∈ lexemeClasses ∧ k.1.isFixed = true ∧ k.1.description.toList = w.map fold := by
  have hp := List.find?_some h
  simp only [Bool.and_eq_true, beq_iff_eq] at hp
  exact ⟨List.mem_of_find?_eq_some h, hp⟩

theorem kindOf_fixed {k : Terminal × Pattern} {w : List Char} (hk : k ∈ lexemeClasses)
    (h : k.1.isFixed = true) (hm : Pattern.Matches k.2 w) : kindOf w = k.1 := by
  have hquote := head?_ne_quote hk (fun hq => by rw [hq] at h; cases h) hm
  have hplain : '-' ∉ w := Pattern.not_mem_of_avoids hm (not_mem_hyphen k hk (by rw [h]; rfl))
  have hfold := fold_of_matches_fixed hk h hm
  rw [kindOf, if_neg hquote, if_neg (getElem?_ne_hyphen hplain 4),
    if_neg (getElem?_ne_hyphen hplain 8)]
  split
  · rename_i j hj
    obtain ⟨hmem, hfixed, hdesc⟩ := find?_fixed hj
    exact fixed_injective j hmem k hk hfixed h (hdesc.trans hfold)
  · rename_i hnone
    have := List.find?_eq_none.1 hnone k hk
    simp [h, hfold] at this

theorem lt_of_isNameStart {c : Char} (h : (c.isAlpha || c == '_') = true) : c.toNat < 128 := by
  have hcases : ((c.isUpper || c.isLower) || c == '_') = true := h
  rw [Bool.or_eq_true, Bool.or_eq_true] at hcases
  rcases hcases with (hupper | hlower) | hline
  · have hle := (of_decide_eq_true hupper).2
    exact Nat.lt_of_le_of_lt (UInt32.le_iff_toNat_le.1 hle) (by decide)
  · have hle := of_decide_eq_true ((Bool.and_eq_true _ _).mp hlower).2
    exact Nat.lt_of_le_of_lt (UInt32.le_iff_toNat_le.1 hle) (by decide)
  · obtain rfl := eq_of_beq hline
    decide

theorem lt_of_isNumberStart {c : Char} (h : (c.isDigit || c == '-') = true) : c.toNat < 128 := by
  simp only [Char.isDigit, Bool.or_eq_true, Bool.and_eq_true, decide_eq_true_eq, beq_iff_eq,
    ge_iff_le, UInt32.le_iff_toNat_le] at h
  rcases h with h | rfl
  · exact Nat.lt_of_le_of_lt h.2 (by decide)
  · decide

/-- Names begin with letters, where numbers begin with digits or a hyphen. -/
theorem fold_of_lt : ∀ n < 128,
    let c := Char.ofNat n
    ((c.isAlpha || c == '_') = true → fold c ∉ signs ∧ (c.isDigit || c == '-') = false) ∧
      ((c.isDigit || c == '-') = true → fold c ∉ signs ∧ (fold c).isLower = false) := by
  decide

theorem fold_of_isNameStart {c : Char} (h : (c.isAlpha || c == '_') = true) :
    fold c ∉ signs ∧ (c.isDigit || c == '-') = false := by
  have hc := fold_of_lt c.toNat (lt_of_isNameStart h)
  rw [Char.ofNat_toNat] at hc
  exact hc.1 h

theorem fold_of_isNumberStart {c : Char} (h : (c.isDigit || c == '-') = true) :
    fold c ∉ signs ∧ (fold c).isLower = false := by
  have hc := fold_of_lt c.toNat (lt_of_isNumberStart h)
  rw [Char.ofNat_toNat] at hc
  exact hc.2 h

theorem start_of_description {k : Terminal × Pattern} {c : Char} {v : List Char}
    (hk : k ∈ lexemeClasses) (h : k.1.isFixed = true)
    (hdesc : k.1.description.toList = (c :: v).map fold) :
    k.1.isKeyword = true ∧ (fold c).isLower = true ∨ fold c ∈ signs := by
  have hhead := (spelling k hk h).2
  rw [hdesc] at hhead
  simpa using hhead

theorem kindOf_name {w : List Char} (h : Pattern.Matches namePattern w) :
    kindOf w = .name ∨ (kindOf w).isKeyword = true := by
  have hk : (Terminal.name, namePattern) ∈ lexemeClasses := by simp [lexemeClasses]
  have hquote := head?_ne_quote hk (by decide) h
  have hplain : '-' ∉ w := Pattern.not_mem_of_avoids h (not_mem_hyphen _ hk (by decide))
  obtain ⟨c, v, rfl, hc⟩ := matches_namePattern h
  obtain ⟨hsign, hdigit⟩ := fold_of_isNameStart hc
  rw [kindOf, if_neg hquote, if_neg (getElem?_ne_hyphen hplain 4),
    if_neg (getElem?_ne_hyphen hplain 8)]
  split
  · rename_i j hj
    obtain ⟨hmem, hfixed, hdesc⟩ := find?_fixed hj
    exact .inr ((start_of_description hmem hfixed hdesc).resolve_right hsign).1
  · exact .inl (if_neg (by simp [hdigit]))

theorem kindOf_number {w : List Char} (h : Pattern.Matches numberPattern w) :
    kindOf w = .number := by
  have hk : (Terminal.number, numberPattern) ∈ lexemeClasses := by simp [lexemeClasses]
  have hquote := head?_ne_quote hk (by decide) h
  obtain ⟨c, v, rfl, hc, hplain⟩ := matches_numberPattern h
  rw [kindOf, if_neg hquote, List.getElem?_cons_succ, if_neg (getElem?_ne_hyphen hplain 3),
    List.getElem?_cons_succ, if_neg (getElem?_ne_hyphen hplain 7)]
  split
  · rename_i j hj
    obtain ⟨hmem, hfixed, hdesc⟩ := find?_fixed hj
    obtain ⟨hsign, hlower⟩ := fold_of_isNumberStart hc
    have hletter := ((start_of_description hmem hfixed hdesc).resolve_right hsign).2
    rw [hlower] at hletter
    cases hletter
  · exact if_pos (by simpa using hc)

/-- A class that matches a text is the one that `kindOf` tells, or that of names beside a
keyword. -/
theorem kindOf_of_matches {k : Terminal × Pattern} {w : List Char} (hk : k ∈ lexemeClasses)
    (hm : Pattern.Matches k.2 w) :
    kindOf w = k.1 ∨ (k.1 = .name ∧ (kindOf w).isKeyword = true) := by
  rcases class_cases hk with h | rfl | rfl | rfl | rfl | rfl
  · exact .inl (kindOf_fixed hk h hm)
  · exact (kindOf_name hm).imp_right fun h => ⟨rfl, h⟩
  · exact .inl (kindOf_number hm)
  · left
    rw [kindOf, if_neg (head?_ne_quote hk (by decide) hm), if_pos (matches_dateTimePattern hm)]
  · left
    obtain ⟨h4, h8⟩ := matches_guidPattern hm
    rw [kindOf, if_neg (head?_ne_quote hk (by decide) hm), if_neg h4, if_pos h8]
  · left
    obtain ⟨u, rfl, -⟩ := matches_quotedPattern.1 hm
    rfl

/-- Two classes match one text only if one of them is a keyword and the other that of names. -/
theorem eq_or_name_of_matches {k j : Terminal × Pattern} {w : List Char} (hk : k ∈ lexemeClasses)
    (hj : j ∈ lexemeClasses) (hkm : Pattern.Matches k.2 w) (hjm : Pattern.Matches j.2 w) :
    k.1 = j.1 ∨ (k.1 = .name ∧ j.1.isKeyword = true) ∨ (j.1 = .name ∧ k.1.isKeyword = true) := by
  rcases kindOf_of_matches hk hkm with h | ⟨h, hword⟩ <;>
    rcases kindOf_of_matches hj hjm with h' | ⟨h', hword'⟩
  · exact .inl (h.symm.trans h')
  · exact .inr (.inr ⟨h', h ▸ hword'⟩)
  · exact .inr (.inl ⟨h, h' ▸ hword⟩)
  · exact .inl (h.trans h'.symm)

end Lexeme

end EntityQuery
