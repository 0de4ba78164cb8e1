import EntityQuery.Proofs.Filter.Classes
import EntityQuery.Proofs.Filter.Reading

/-!
# Texts cut by the longest match

`Scans` says into which tokens a text is cut, without regard to how the cut is found: blanks are
skipped, and each token is the longest lexeme at its place (`Lexeme.Leads`), a keyword rather than
a name. A text is cut in one way at most, and `scans_iff` says that `Cut.ofText` finds it.
-/

namespace EntityQuery

open Text (Pattern)

/-! ## Blanks -/

namespace Text

/-- The blank characters by their code points. -/
def blankCodes : List Nat := blankRanges.flatMap fun r => List.range' r.1 (r.2 + 1 - r.1)

theorem mem_blankCodes {c : Char} (h : isBlank c = true) : c.toNat ∈ blankCodes := by
  obtain ⟨r, hr, hc⟩ := List.any_eq_true.1 h
  simp only [Bool.and_eq_true, decide_eq_true_eq] at hc
  exact List.mem_flatMap.2 ⟨r, hr, List.mem_range'_1.2 ⟨hc.1, by omega⟩⟩

end Text

namespace Lexeme

theorem avoids_blankCodes : ∀ k ∈ lexemeClasses, k.1 ≠ .quoted →
    ∀ n ∈ Text.blankCodes, k.2.avoids (Char.ofNat n) = true := by
  decide

/-- Only quoted texts have blanks in them. -/
theorem not_mem_of_isBlank {k : Terminal × Pattern} {w : List Char} {c : Char}
    (hk : k ∈ lexemeClasses) (hq : k.1 ≠ .quoted) (hm : Pattern.Matches k.2 w)
    (hc : Text.isBlank c = true) : c ∉ w := by
  have havoids := avoids_blankCodes k hk hq c.toNat (Text.mem_blankCodes hc)
  rw [Char.ofNat_toNat] at havoids
  exact Pattern.not_mem_of_avoids hm havoids

/-- No lexeme begins with a blank. -/
theorem head_not_blank {k : Terminal × Pattern} {c : Char} {w : List Char}
    (hk : k ∈ lexemeClasses) (hm : Pattern.Matches k.2 (c :: w)) : Text.isBlank c = false := by
  by_cases hq : k.1 = .quoted
  · rw [eq_quotedPattern hk hq] at hm
    obtain ⟨u, hu, -⟩ := matches_quotedPattern.1 hm
    obtain ⟨rfl, -⟩ := List.cons.inj hu
    decide
  · exact Bool.eq_false_iff.2 fun hc => not_mem_of_isBlank hk hq hm hc List.mem_cons_self

/-! ## The lexeme at the front -/

/-- A text is the lexeme at the front of another one: no class matches further there, and where
another class matches as far, it is that of names and the lexeme is a keyword. -/
structure Leads (cs : List Char) (t : Terminal) (w : List Char) : Prop where
  isPrefix : w <+: cs
  ne_nil : w ≠ []
  matched : ∃ p, (t, p) ∈ lexemeClasses ∧ Pattern.Matches p w
  longest : ∀ k ∈ lexemeClasses, ∀ v, v <+: cs → Pattern.Matches k.2 v → v.length ≤ w.length
  wins : ∀ k ∈ lexemeClasses, Pattern.Matches k.2 w →
    k.1 = t ∨ (k.1 = .name ∧ t.isKeyword = true)

theorem Leads.unique {cs w w' : List Char} {t t' : Terminal} (h : Leads cs t w)
    (h' : Leads cs t' w') : t = t' ∧ w = w' := by
  obtain ⟨p, hp, hpm⟩ := h.matched
  obtain ⟨p', hp', hpm'⟩ := h'.matched
  have hlen : w.length = w'.length :=
    Nat.le_antisymm (h'.longest _ hp w h.isPrefix hpm) (h.longest _ hp' w' h'.isPrefix hpm')
  obtain rfl : w = w' :=
    (List.prefix_of_prefix_length_le h.isPrefix h'.isPrefix (Nat.le_of_eq hlen)).eq_of_length hlen
  refine ⟨?_, rfl⟩
  rcases h.wins _ hp' hpm' with heq | ⟨hname, hword⟩
  · exact heq.symm
  · rcases h'.wins _ hp hpm with heq | ⟨hname', -⟩
    · exact heq
    · exact hname'.trans hname.symm

/-! ## The search finds the lexeme at the front -/

theorem foldl_better_eq_none {cs : List Char} {classes : List (Terminal × Pattern)}
    {best : Option (Terminal × Nat)}
    (h : classes.foldl (fun best c => better best (candidate? cs c)) best = none) :
    best = none ∧ ∀ k ∈ classes, candidate? cs k = none := by
  induction classes generalizing best with
  | nil => exact ⟨h, List.forall_mem_nil _⟩
  | cons k classes ih =>
    obtain ⟨hbetter, hrest⟩ := ih h
    have hbetter : better best (candidate? cs k) = none := hbetter
    have hbest : best = none := by
      cases best with
      | none => rfl
      | some m =>
        obtain ⟨r, hr, -⟩ := exists_better_left (a := m) (candidate? cs k)
        rw [hr] at hbetter
        cases hbetter
    subst hbest
    exact ⟨rfl, List.forall_mem_cons.2 ⟨hbetter, hrest⟩⟩

/-- What was best before stays, unless something longer comes. -/
theorem foldl_better_eq_or_lt {cs : List Char} {classes : List (Terminal × Pattern)}
    {m r : Terminal × Nat}
    (h : classes.foldl (fun best c => better best (candidate? cs c)) (some m) = some r) :
    r = m ∨ m.2 < r.2 := by
  induction classes generalizing m with
  | nil => exact .inl (Option.some.inj h).symm
  | cons k classes ih =>
    have h : classes.foldl (fun best c => better best (candidate? cs c))
        (better (some m) (candidate? cs k)) = some r := h
    cases hk : candidate? cs k with
    | none =>
      rw [hk] at h
      exact ih h
    | some j =>
      rw [hk, better] at h
      split at h
      · rename_i hlt
        rcases ih h with rfl | hj
        · exact .inr hlt
        · exact .inr (Nat.lt_trans hlt hj)
      · exact ih h

theorem exists_candidate {cs v : List Char} {k : Terminal × Pattern} (hv : v <+: cs)
    (hne : v ≠ []) (hm : Pattern.Matches k.2 v) :
    ∃ m, candidate? cs k = some m ∧ m.1 = k.1 ∧ v.length ≤ m.2 := by
  have hpos := List.length_pos_iff.2 hne
  obtain ⟨j, hj, hle⟩ := Pattern.exists_longest? (p := k.2) hv.length_le
    (by rwa [← List.prefix_iff_eq_take.1 hv])
  obtain ⟨j, rfl⟩ : ∃ i, j = i + 1 := ⟨j - 1, by omega⟩
  exact ⟨(k.1, j + 1), by rw [candidate?, hj], rfl, hle⟩

/-- The nine keywords that might be names are looked at before all else. -/
theorem keywords_first : (∀ k ∈ lexemeClasses.take 9, k.1.isKeyword = true) ∧
    ∀ k ∈ lexemeClasses.drop 9, k.1.isKeyword = false := by
  decide

theorem not_matches_keyword {cs : List Char} {n : Nat} (h : front? cs = some (.name, n))
    {k : Terminal × Pattern} (hk : k ∈ lexemeClasses) (hword : k.1.isKeyword = true) :
    ¬ Pattern.Matches k.2 (cs.take n) := by
  intro hm
  have hfirst : k ∈ lexemeClasses.take 9 := by
    rw [← List.take_append_drop 9 lexemeClasses] at hk
    refine (List.mem_append.1 hk).resolve_right fun hlast => ?_
    rw [keywords_first.2 k hlast] at hword
    cases hword
  have hn := le_length_of_front? h
  have hpos := front?_pos h
  have hlen : (cs.take n).length = n := by rw [List.length_take]; omega
  obtain ⟨m, hcandidate, -, hle⟩ := exists_candidate (List.take_prefix n cs)
    (List.ne_nil_of_length_pos (by omega)) hm
  -- the search comes to the other classes with a keyword that is no shorter than the name
  cases hbest : (lexemeClasses.take 9).foldl (fun best c => better best (candidate? cs c)) none with
  | none => rw [(foldl_better_eq_none hbest).2 k hfirst] at hcandidate; cases hcandidate
  | some b =>
    have hmax := (foldl_better_max hbest).2 k hfirst m hcandidate
    rw [front?, ← List.take_append_drop 9 lexemeClasses, List.foldl_append, hbest] at h
    rcases foldl_better_eq_or_lt h with rfl | hlt
    · rcases foldl_better_mem hbest with hnone | ⟨j, hj, hjm⟩
      · cases hnone
      · have hkey := keywords_first.1 j hj
        rw [← (candidate?_eq_some hjm).1] at hkey
        cases hkey
    · have hlt : b.2 < n := hlt
      omega

theorem leads_of_front? {cs : List Char} {t : Terminal} {n : Nat}
    (h : front? cs = some (t, n)) : Leads cs t (cs.take n) := by
  obtain ⟨p, hp, hlongest⟩ := exists_class_of_front? h
  obtain ⟨hn, hpm, -⟩ := (Pattern.longest?_eq_some _ _ _).1 hlongest
  have hpos := front?_pos h
  have hlen : (cs.take n).length = n := by rw [List.length_take]; omega
  refine ⟨List.take_prefix n cs, List.ne_nil_of_length_pos (by omega), ⟨p, hp, hpm⟩, ?_, ?_⟩
  · intro k hk v hv hm
    rw [hlen]
    exact length_le_of_front? h hk hv.length_le (by rwa [← List.prefix_iff_eq_take.1 hv])
  · intro k hk hm
    rcases eq_or_name_of_matches hk hp hm hpm with heq | hname | ⟨rfl, hword⟩
    · exact .inl heq
    · exact .inr hname
    · exact absurd hm (not_matches_keyword h hk hword)

theorem front?_of_leads {cs w : List Char} {t : Terminal} (h : Leads cs t w) :
    front? cs = some (t, w.length) := by
  obtain ⟨p, hp, hpm⟩ := h.matched
  obtain ⟨m, hm, -⟩ := exists_candidate h.isPrefix h.ne_nil (k := (t, p)) hpm
  cases hfront : front? cs with
  | none => rw [(foldl_better_eq_none hfront).2 _ hp] at hm; cases hm
  | some r =>
    obtain ⟨u, n⟩ := r
    obtain ⟨rfl, rfl⟩ := h.unique (leads_of_front? hfront)
    rw [List.length_take, Nat.min_eq_left (le_length_of_front? hfront)]

theorem leads_iff_front? {t : Terminal} {w rest : List Char} :
    Leads (w ++ rest) t w ↔ front? (w ++ rest) = some (t, w.length) := by
  refine ⟨front?_of_leads, fun h => ?_⟩
  have hlead := leads_of_front? h
  rwa [List.take_left] at hlead

/-- The lexeme at the front of a text is one by itself. -/
theorem Leads.whole {t : Terminal} {w rest : List Char} (h : Leads (w ++ rest) t w) :
    Whole t w where
  front := by
    have hfront := leads_iff_front?.1 h
    rwa [front?_append (ends_of_front? hfront)] at hfront
  head := by
    intro c hc
    obtain ⟨v, rfl⟩ := List.head?_eq_some_iff.1 hc
    obtain ⟨p, hp, hm⟩ := h.matched
    exact head_not_blank hp hm

end Lexeme

/-! ## Whole texts -/

/-- The tokens of a text. -/
inductive Scans : List Char → List Token → Prop where
  | nil : Scans [] []
  | blank {c : Char} {cs : List Char} {ts : List Token} (hc : Text.isBlank c = true)
      (h : Scans cs ts) : Scans (c :: cs) ts
  | token {t : Terminal} {w rest : List Char} {ts : List Token}
      (hw : Lexeme.Leads (w ++ rest) t w) (h : Scans rest ts) : Scans (w ++ rest) (⟨t, w⟩ :: ts)

theorem Cut.ofChars_of_leads {t : Terminal} {w rest : List Char}
    (h : Lexeme.Leads (w ++ rest) t w) {start : Nat} {l : Lexeme} (hl : l = ⟨t, w, start⟩) :
    ofChars start (w ++ rest) = (ofChars l.stop rest).cons l :=
  ofChars_append h.whole.head (Lexeme.front?_of_leads h) hl

theorem Scans.ofChars {cs : List Char} {ts : List Token} (h : Scans cs ts) (start : Nat) :
    ∃ ls, Cut.ofChars start cs = ⟨ls, none⟩ ∧ ls.map Lexeme.token = ts := by
  induction h generalizing start with
  | nil => exact ⟨[], by rw [Cut.ofChars], rfl⟩
  | blank hc _ ih =>
    rw [Cut.ofChars_blank hc]
    exact ih _
  | @token t w rest ts hw _ ih =>
    obtain ⟨ls, hls, hts⟩ := ih (Lexeme.stop ⟨t, w, start⟩)
    refine ⟨⟨t, w, start⟩ :: ls, ?_, by rw [List.map_cons, hts]; rfl⟩
    rw [Cut.ofChars_of_leads hw rfl, hls]
    rfl

theorem Cut.scans_ofChars {start : Nat} {cs : List Char} (h : (Cut.ofChars start cs).stuck = none) :
    Scans cs ((Cut.ofChars start cs).lexemes.map Lexeme.token) := by
  fun_induction Cut.ofChars start cs with
  | case1 => exact .nil
  | case2 _ c rest hc ih => exact .blank hc (ih h)
  | case3 => cases h
  | case4 start c rest hc t n hfront l after ih =>
    have hsplit : (c :: rest).take n ++ (c :: rest).drop n = c :: rest := List.take_append_drop ..
    have hlead :
        Lexeme.Leads ((c :: rest).take n ++ (c :: rest).drop n) t ((c :: rest).take n) := by
      rw [hsplit]
      exact Lexeme.leads_of_front? hfront
    have hscans := Scans.token hlead (ih h)
    rwa [hsplit] at hscans

/-- A text is cut to its end exactly if it has tokens, and these are the ones found. -/
theorem scans_iff {s : String} {ts : List Token} :
    Scans s.toList ts ↔ ∃ ls, Cut.ofText s = ⟨ls, none⟩ ∧ ls.map Lexeme.token = ts := by
  constructor
  · exact fun h => h.ofChars 0
  · rintro ⟨ls, hls, rfl⟩
    have hcut : Cut.ofChars 0 s.toList = ⟨ls, none⟩ := hls
    have hstuck : (Cut.ofChars 0 s.toList).stuck = none := by rw [hcut]
    have h := Cut.scans_ofChars hstuck
    rwa [hcut] at h

end EntityQuery
