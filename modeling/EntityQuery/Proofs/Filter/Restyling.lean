import EntityQuery.Proofs.Filter.Language
import EntityQuery.Proofs.Filter.Recasing

/-!
# Texts in other letters and with other blanks

`Restyled` relates two texts with the same tokens, up to the case of keywords and of the names of
fields, and with other blanks between them. No class of lexemes but that of date-times tells a
letter from its capital (`Lexeme.caseless_of_mem`), and what may follow a literal does not go on
with a date-time. So the longest matches are the same in both texts (`Lexeme.Leads.recased`), and a
filter is read as the same tree with other names for its fields (`Restyled.parse`).
-/

namespace EntityQuery

open Text (Pattern)

/-! ## Patterns without regard to case -/

namespace Text

/-- The letters with a small form of their own, as far as `Char.toLower` goes. -/
def capitals : List Char := (List.range' 65 26).map Char.ofNat

theorem toLower_eq_or_mem_capitals (c : Char) : c.toLower = c ∨ c ∈ capitals :=
  toLower_induction (P := fun c d => d = c ∨ c ∈ capitals) (fun _ => .inl rfl) (by decide) c

namespace Pattern

/-- Does no set of characters tell a capital from its small form? -/
def caseless : Pattern → Bool
  | never | empty => true
  | set p => capitals.all fun c => p c.toLower == p c
  | seq a b | alt a b => a.caseless && b.caseless
  | star a => a.caseless

theorem set_toLower {p : Char → Bool} (h : (set p).caseless = true) (c : Char) :
    p c.toLower = p c := by
  rcases toLower_eq_or_mem_capitals c with hc | hc
  · rw [hc]
  · exact eq_of_beq (List.all_eq_true.1 h c hc)

theorem Matches.of_caseless {p : Pattern} {w w' : List Char} (hm : Matches p w)
    (hp : p.caseless = true) (hw : w'.map Char.toLower = w.map Char.toLower) : Matches p w' := by
  induction hm generalizing w' with
  | empty =>
    obtain rfl := List.map_eq_nil_iff.1 hw
    exact .empty
  | @set p c hc =>
    obtain ⟨d, v, rfl, hd, hv⟩ := List.map_eq_cons_iff.1 hw
    obtain rfl := List.map_eq_nil_iff.1 hv
    refine .set ?_
    rw [← set_toLower hp, hd, set_toLower hp, hc]
  | seq _ _ ihu ihv =>
    rw [caseless, Bool.and_eq_true] at hp
    rw [List.map_append] at hw
    obtain ⟨u', v', rfl, hu, hv⟩ := List.map_eq_append_iff.1 hw
    exact .seq (ihu hp.1 hu) (ihv hp.2 hv)
  | left _ ih =>
    rw [caseless, Bool.and_eq_true] at hp
    exact .left (ih hp.1 hw)
  | right _ ih =>
    rw [caseless, Bool.and_eq_true] at hp
    exact .right (ih hp.2 hw)
  | stop =>
    obtain rfl := List.map_eq_nil_iff.1 hw
    exact .stop
  | more _ _ ihu ihv =>
    rw [List.map_append] at hw
    obtain ⟨u', v', rfl, hu, hv⟩ := List.map_eq_append_iff.1 hw
    exact .more (ihu hp hu) (ihv hp hv)

end Pattern

end Text

namespace Lexeme

/-- Only date-times have capitals of their own. -/
theorem caseless_of_mem : ∀ k ∈ lexemeClasses, k.1 ≠ .dateTime → k.2.caseless = true := by
  decide

end Lexeme

/-! ## Behind a literal -/

namespace Terminal

/-- The classes of literals that may begin with a digit. -/
def isFigure : Terminal → Bool
  | number | dateTime | guid => true
  | _ => false

/-- What may stand behind a literal. -/
def isFollower : Terminal → Bool
  | andWord | orWord | comma | rightParen => true
  | _ => false

theorem isFixed_of_isFollower {t : Terminal} (h : t.isFollower = true) : t.isFixed = true := by
  cases t with
  | andWord | orWord | comma | rightParen => rfl
  | _ => cases h

end Terminal

namespace Clause

/-- Has a literal just been read? -/
def isFilled : Clause → Bool
  | testClose .. | items .. | comma .. | close .. => true
  | _ => false

theorem isFilled_of_next? {c c' : Clause} {l : Lexeme} (h : c.next? l = some (.more c'))
    (hl : l.terminal.isFigure = true) : c'.isFilled = true := by
  obtain ⟨t, w, start⟩ := l
  cases t with
  | number | dateTime | guid =>
    cases c with
    | testOpen | item | low | high => cases h; rfl
    | _ => cases h
  | _ => cases hl

theorem isFollower_of_next? {c : Clause} {l : Lexeme} {s : Step} (hc : c.isFilled = true)
    (h : c.next? l = some s) : l.terminal.isFollower = true := by
  obtain ⟨t, w, start⟩ := l
  cases c with
  | testClose | items | comma | close =>
    cases t with
    | andWord | orWord | comma | rightParen => rfl
    | _ => cases h
  | _ => cases hc

end Clause

namespace ParseState

theorem isFollower_of_complete {s r : ParseState} {n : Node} {l : Lexeme}
    (hs : s.focus = .complete n) (h : s.next? l = some r) : l.terminal.isFollower = true := by
  obtain ⟨t, w, start⟩ := l
  rw [next?, hs] at h
  cases t with
  | andWord | orWord | rightParen => rfl
  | _ => cases h

/-- The reader takes no other tokens behind a literal. -/
theorem isFollower_of_step? {s s' r : ParseState} {t u : Token} (h : s.step? t = some s')
    (ht : t.terminal.isFigure = true) (h' : s'.step? u = some r) :
    u.terminal.isFollower = true := by
  obtain ⟨outer, p, focus⟩ := s
  cases focus with
  | operand | complete =>
    obtain ⟨t, w⟩ := t
    cases t with
    | number | dateTime | guid => cases h
    | _ => cases ht
  | clause c =>
    rw [step?, next?] at h
    cases hstep : c.next? ⟨t.terminal, t.text, 0⟩ with
    | none => simp only [hstep] at h; cases h
    | some step =>
      simp only [hstep] at h
      cases step with
      | done n =>
        obtain rfl := Option.some.inj h
        exact isFollower_of_complete (l := ⟨u.terminal, u.text, 0⟩) rfl h'
      | more c' =>
        obtain rfl := Option.some.inj h
        have hc := Clause.isFilled_of_next? hstep ht
        rw [step?, next?] at h'
        cases hnext : c'.next? ⟨u.terminal, u.text, 0⟩ with
        | none => simp only [hnext] at h'; cases h'
        | some _ => exact Clause.isFollower_of_next? hc hnext

end ParseState

namespace Lexeme

theorem map_fold_of_leads {cs w : List Char} {t : Terminal} (h : Leads cs t w)
    (ht : t.isFixed = true) : w.map fold = t.description.toList := by
  obtain ⟨p, hp, hm⟩ := h.matched
  exact fold_of_matches_fixed hp ht hm

theorem toLower_of_fold {c d : Char} (h : fold c = d) (hs : d ≠ 's') (hk : d ≠ 'k') :
    c.toLower = d := by
  rw [fold] at h
  split at h
  · exact absurd h.symm hs
  · split at h
    · exact absurd h.symm hk
    · exact h

/-- The first characters of what may stand behind a literal. -/
def followers : List Char := [',', ')', 'a', 'o']

theorem head_of_isFollower {cs w : List Char} {t : Terminal} (h : Leads cs t w)
    (ht : t.isFollower = true) : ∃ c v, w = c :: v ∧ c.toLower ∈ followers := by
  have hfirst : ∀ {d : Char} {ds : List Char}, w.map fold = d :: ds → d ≠ 's' → d ≠ 'k' →
      ∃ c v, w = c :: v ∧ c.toLower = d := by
    intro d ds hw hs hk
    obtain ⟨c, v, rfl, hc, -⟩ := List.map_eq_cons_iff.1 hw
    exact ⟨c, v, rfl, toLower_of_fold hc hs hk⟩
  have hw := map_fold_of_leads h (Terminal.isFixed_of_isFollower ht)
  cases t with
  | andWord | orWord | comma | rightParen =>
    obtain ⟨c, v, rfl, hc⟩ := hfirst hw (by decide) (by decide)
    exact ⟨c, v, rfl, by rw [hc]; decide⟩
  | _ => cases ht

/-- Only figures begin with a digit. -/
theorem derivative_digit : ∀ k ∈ lexemeClasses, k.1.isFigure = false →
    ∀ n ∈ List.range' 48 10, (k.2.derivative (Char.ofNat n)).isNever = true := by
  decide

theorem isFigure_of_isDigit {k : Terminal × Pattern} {c : Char} {w : List Char}
    (hk : k ∈ lexemeClasses) (hm : Pattern.Matches k.2 (c :: w)) (hc : c.isDigit = true) :
    k.1.isFigure = true := by
  have hn : c.toNat ∈ List.range' 48 10 := by
    simp only [Char.isDigit, Bool.and_eq_true, decide_eq_true_eq, ge_iff_le,
      UInt32.le_iff_toNat_le] at hc
    exact List.mem_range'_1.2 ⟨hc.1, Nat.lt_succ_of_le hc.2⟩
  cases hfigure : k.1.isFigure with
  | true => rfl
  | false =>
    have hnever := derivative_digit k hk hfigure _ hn
    rw [Char.ofNat_toNat] at hnever
    exact absurd hm (Pattern.not_matches_of_derivative hnever w)

theorem isDigit_of_matches_dateTime {c : Char} {w : List Char}
    (h : Pattern.Matches dateTimePattern (c :: w)) : c.isDigit = true := by
  obtain ⟨y, v, hy, hm, -⟩ := (Pattern.matches_seq_iff _ _ _).1 h
  obtain ⟨hlen, hall⟩ := Pattern.matches_times_set hm
  obtain ⟨d, y, rfl⟩ := List.exists_cons_of_length_pos (l := y) (by omega)
  obtain ⟨rfl, -⟩ := List.cons.inj hy
  exact hall c List.mem_cons_self

theorem eq_dateTimePattern {k : Terminal × Pattern} (hk : k ∈ lexemeClasses)
    (h : k.1 = .dateTime) : k.2 = dateTimePattern := by
  revert k
  simp [lexemeClasses]

/-- What may follow a literal does not go on with a date-time. -/
theorem avoids_follower {c : Char} (h : c.toLower ∈ followers) :
    dateTimePattern.avoids c = true := by
  revert h
  refine Text.toLower_induction
    (P := fun c d => d ∈ followers → dateTimePattern.avoids c = true) ?_ (by decide) c
  exact fun c hc => List.all_eq_true.1 (by decide : followers.all dateTimePattern.avoids) c hc

/-- Nothing stands there, or a blank, or something that may follow a literal. -/
def Parted (rest : List Char) : Prop :=
  ∀ c ∈ rest.head?, Text.isBlank c = true ∨ c.toLower ∈ followers

/-- A lexeme with something behind it that may stand there is not a date-time. -/
theorem eq_nil_of_matches_dateTime_append {t : Terminal} {p : Pattern} {w x rest : List Char}
    (hp : (t, p) ∈ lexemeClasses) (hw : Pattern.Matches p w) (hne : w ≠ [])
    (hx : Pattern.Matches dateTimePattern (w ++ x)) (hpre : x <+: rest)
    (hparted : t.isFigure = true → Parted rest) : x = [] := by
  obtain ⟨d, v, rfl⟩ := List.exists_cons_of_ne_nil hne
  have hfigure := isFigure_of_isDigit hp hw (isDigit_of_matches_dateTime hx)
  cases x with
  | nil => rfl
  | cons c x =>
    obtain ⟨y, rfl⟩ := hpre
    have hmem : c ∈ d :: v ++ c :: x := List.mem_append_right _ List.mem_cons_self
    rcases hparted hfigure c rfl with hblank | hfollower
    · have hk : (Terminal.dateTime, dateTimePattern) ∈ lexemeClasses := by simp [lexemeClasses]
      exact absurd hmem (not_mem_of_isBlank hk (by decide) hx hblank)
    · exact absurd hmem (Pattern.not_mem_of_avoids hx (avoids_follower hfollower))

/-! ## The longest match -/

/-- What the second text begins with, up to a blank, the first one begins with as well, in other
letters. -/
def Runs (rest rest' : List Char) : Prop :=
  ∀ x', x' <+: rest' → (∀ c ∈ x', Text.isBlank c = false) →
    ∃ x, x <+: rest ∧ x.map Char.toLower = x'.map Char.toLower

theorem Runs.of_blank {rest rest' : List Char}
    (h : ∀ c ∈ rest'.head?, Text.isBlank c = true) : Runs rest rest' := by
  rintro (_ | ⟨c, x'⟩) hx' hblank
  · exact ⟨[], List.nil_prefix, rfl⟩
  · obtain ⟨y, rfl⟩ := hx'
    have hc := h c rfl
    rw [hblank c List.mem_cons_self] at hc
    cases hc

theorem Runs.append {w w' rest rest' : List Char}
    (hw : w'.map Char.toLower = w.map Char.toLower) (h : Runs rest rest') :
    Runs (w ++ rest) (w' ++ rest') := by
  intro x' hx' hblank
  rcases List.prefix_or_prefix_of_prefix hx' (List.prefix_append w' rest') with hle | ⟨y', rfl⟩
  · refine ⟨w.take x'.length, (List.take_prefix _ _).trans (List.prefix_append _ _), ?_⟩
    rw [List.map_take, ← hw, ← List.map_take, ← List.prefix_iff_eq_take.1 hle]
  · obtain ⟨y, hy, hlower⟩ := h y' ((List.prefix_append_right_inj w').1 hx')
      fun c hc => hblank c (List.mem_append_right _ hc)
    refine ⟨w ++ y, (List.prefix_append_right_inj w).2 hy, ?_⟩
    rw [List.map_append, List.map_append, hw, hlower]

namespace Leads

variable {w w' rest rest' : List Char} {t : Terminal} (h : Leads (w ++ rest) t w)
  (hw : w'.map Char.toLower = w.map Char.toLower) (hsame : t = .dateTime → w' = w)

include h hw

theorem ne_nil_recased : w' ≠ [] := by
  rintro rfl
  exact h.ne_nil (List.map_eq_nil_iff.1 hw.symm)

include hsame

theorem matched_recased : ∃ p, (t, p) ∈ lexemeClasses ∧ Pattern.Matches p w' := by
  obtain ⟨p, hp, hm⟩ := h.matched
  refine ⟨p, hp, ?_⟩
  by_cases ht : t = .dateTime
  · rwa [hsame ht]
  · exact hm.of_caseless (caseless_of_mem _ hp ht) hw

/-- The lexeme in other letters does not go on either. A quoted text ends at its quote, what goes
on with a date-time does not follow a literal, and all else would have gone on with the old one. -/
theorem ends_recased (hruns : Runs rest rest') (hparted : t.isFigure = true → Parted rest') :
    Ends w' rest' := by
  intro k hk x' hne hx' hkm
  obtain ⟨p, hp, hm⟩ := h.matched_recased hw hsame
  by_cases hquoted : k.1 = .quoted
  · rw [eq_quotedPattern hk hquoted] at hkm
    exact hne (eq_nil_of_matches_quoted_append hp hm (h.ne_nil_recased hw) hkm)
  by_cases hdate : k.1 = .dateTime
  · rw [eq_dateTimePattern hk hdate] at hkm
    exact hne (eq_nil_of_matches_dateTime_append hp hm (h.ne_nil_recased hw) hkm hx' hparted)
  have hblank : ∀ c ∈ x', Text.isBlank c = false := fun c hc => Bool.eq_false_iff.2 fun hc' =>
    not_mem_of_isBlank hk hquoted hkm hc' (List.mem_append_right _ hc)
  obtain ⟨x, hx, hlower⟩ := hruns x' hx' hblank
  have hboth : (w ++ x).map Char.toLower = (w' ++ x').map Char.toLower := by
    rw [List.map_append, List.map_append, hw, hlower]
  have hle := h.longest k hk (w ++ x) ((List.prefix_append_right_inj w).2 hx)
    (hkm.of_caseless (caseless_of_mem k hk hdate) hboth)
  have hlen : x.length = x'.length := by simpa using congrArg List.length hlower
  have hpos := List.length_pos_iff.2 hne
  rw [List.length_append] at hle
  omega

/-- In other letters, and with other texts behind it, it is the lexeme in front again. -/
theorem recased (hruns : Runs rest rest') (hparted : t.isFigure = true → Parted rest') :
    Leads (w' ++ rest') t w' := by
  obtain ⟨p, hp, hm⟩ := h.matched_recased hw hsame
  have hends := h.ends_recased hw hsame hruns hparted
  refine ⟨List.prefix_append _ _, h.ne_nil_recased hw, ⟨p, hp, hm⟩, ?_, ?_⟩
  · intro k hk v hv hkm
    rcases List.prefix_or_prefix_of_prefix hv (List.prefix_append w' rest') with hle | ⟨x', rfl⟩
    · exact hle.length_le
    · cases x' with
      | nil => exact Nat.le_of_eq (congrArg List.length (List.append_nil w'))
      | cons c x' =>
        have hx' := (List.prefix_append_right_inj w').1 hv
        exact absurd hkm (hends k hk _ (List.cons_ne_nil _ _) hx')
  · intro k hk hkm
    rcases eq_or_name_of_matches hk hp hkm hm with heq | hname | ⟨rfl, hword⟩
    · exact .inl heq
    · exact .inr hname
    · -- a keyword in other letters is one in the old letters too
      have hdate : k.1 ≠ .dateTime := fun hk' => by rw [hk'] at hword; cases hword
      exact h.wins k hk (hkm.of_caseless (caseless_of_mem k hk hdate) hw.symm)

end Leads

end Lexeme

/-! ## Restyled texts -/

section Recased

variable {R : String → String → Prop} {next : List Token} {t : Terminal} {w w' : List Char}

theorem Token.Recased.map_toLower (hR : ∀ a b, R a b → Text.eqIgnoreAsciiCase a b = true)
    (h : Recased R next ⟨t, w⟩ ⟨t, w'⟩) : w'.map Char.toLower = w.map Char.toLower := by
  cases h with
  | same => rfl
  | word _ hw => exact hw
  | field _ hw =>
    have hlower := Text.eqIgnoreAsciiCase_iff.1 (hR _ _ hw)
    rw [String.toList_ofList, String.toList_ofList] at hlower
    exact hlower.symm

theorem Token.Recased.eq_of_dateTime (h : Recased R next ⟨t, w⟩ ⟨t, w'⟩) (ht : t = .dateTime) :
    w' = w := by
  subst ht
  cases h with
  | same => rfl
  | word hfixed _ => cases hfixed

end Recased

theorem Scans.after_blanks {gap cs : List Char} {ts : List Token}
    (hgap : gap.all Text.isBlank = true) (h : Scans cs ts) : Scans (gap ++ cs) ts := by
  induction gap with
  | nil => exact h
  | cons c gap ih =>
    rw [List.all_cons, Bool.and_eq_true] at hgap
    exact .blank hgap.1 (ih hgap.2)

theorem Scans.of_blanks {gap : List Char} (hgap : gap.all Text.isBlank = true) : Scans gap [] := by
  have h := Scans.nil.after_blanks hgap
  rwa [List.append_nil] at h

/-- The second text has the tokens of the first in other letters (`Token.Recased`), with other
blanks in front of them and behind. In front of a token no blanks go altogether. -/
inductive Restyled (R : String → String → Prop) :
    List Char → List Token → List Char → List Token → Prop where
  | done {gap gap' : List Char} (hgap : gap.all Text.isBlank = true)
      (hgap' : gap'.all Text.isBlank = true) : Restyled R gap [] gap' []
  | token {gap gap' w w' rest rest' : List Char} {t : Terminal} {ts ts' : List Token}
      (hgap : gap.all Text.isBlank = true) (hgap' : gap'.all Text.isBlank = true)
      (hstay : gap ≠ [] → gap' ≠ []) (hlead : Lexeme.Leads (w ++ rest) t w)
      (htoken : Token.Recased R ts ⟨t, w⟩ ⟨t, w'⟩) (h : Restyled R rest ts rest' ts') :
      Restyled R (gap ++ (w ++ rest)) (⟨t, w⟩ :: ts) (gap' ++ (w' ++ rest')) (⟨t, w'⟩ :: ts')

namespace Restyled

variable {R : String → String → Prop} {cs cs' : List Char} {ts ts' : List Token}

theorem scans_left (h : Restyled R cs ts cs' ts') : Scans cs ts := by
  induction h with
  | done hgap _ => exact .of_blanks hgap
  | token hgap _ _ hlead _ _ ih => exact (Scans.token hlead ih).after_blanks hgap

theorem recasing (h : Restyled R cs ts cs' ts') : Token.Recasing R [] ts ts' := by
  induction h with
  | done => exact .nil
  | token _ _ _ _ htoken _ ih => exact .cons (by rwa [List.append_nil]) ih

variable (hR : ∀ a b, R a b → Text.eqIgnoreAsciiCase a b = true)

include hR

theorem runs (h : Restyled R cs ts cs' ts') : Lexeme.Runs cs cs' := by
  induction h with
  | done _ hgap' =>
    exact .of_blank fun c hc => List.all_eq_true.1 hgap' c (List.mem_of_mem_head? hc)
  | @token gap gap' w w' rest rest' t ts ts' _ hgap' hstay _ htoken _ ih =>
    cases gap' with
    | cons b gap' =>
      rw [List.all_cons, Bool.and_eq_true] at hgap'
      refine .of_blank ?_
      rintro c ⟨⟩
      exact hgap'.1
    | nil =>
      -- without a blank in front of the new token there was none in front of the old one
      obtain rfl : gap = [] := Classical.byContradiction fun hgap => hstay hgap rfl
      have hboth := ih.append (htoken.map_toLower hR)
      exact hboth

/-- Behind a literal of a filter the new text goes on as a filter may. -/
theorem parted (h : Restyled R cs ts cs' ts')
    (hts : ∀ t ∈ ts.head?, t.terminal.isFollower = true) : Lexeme.Parted cs' := by
  cases h with
  | done _ hgap' =>
    exact fun c hc => .inl (List.all_eq_true.1 hgap' c (List.mem_of_mem_head? hc))
  | @token gap gap' w w' rest rest' t ts ts' _ hgap' _ hlead htoken _ =>
    cases gap' with
    | cons b gap' =>
      rw [List.all_cons, Bool.and_eq_true] at hgap'
      rintro c ⟨⟩
      exact .inl hgap'.1
    | nil =>
      obtain ⟨c, v, rfl, hc⟩ := Lexeme.head_of_isFollower hlead (hts _ rfl)
      obtain ⟨d, v', rfl, hd, -⟩ := List.map_eq_cons_iff.1 (htoken.map_toLower hR)
      rintro e ⟨⟩
      exact .inr (hd ▸ hc)

/-- The new text has the new tokens, provided that the reader takes the old ones. -/
theorem scans_right (h : Restyled R cs ts cs' ts') {s r : ParseState}
    (hs : s.steps? ts = some r) : Scans cs' ts' := by
  induction h generalizing s with
  | done _ hgap' => exact .of_blanks hgap'
  | @token gap gap' w w' rest rest' t ts ts' _ hgap' _ hlead htoken h ih =>
    rw [ParseState.steps?_cons] at hs
    obtain ⟨s', hstep, hs⟩ := Option.bind_eq_some_iff.1 hs
    have hparted : t.isFigure = true → Lexeme.Parted rest' := by
      refine fun ht => h.parted hR fun u hu => ?_
      obtain ⟨us, rfl⟩ := List.head?_eq_some_iff.1 hu
      rw [ParseState.steps?_cons] at hs
      obtain ⟨s'', hstep', -⟩ := Option.bind_eq_some_iff.1 hs
      exact ParseState.isFollower_of_step? hstep ht hstep'
    have hlead' := hlead.recased (htoken.map_toLower hR) htoken.eq_of_dateTime (h.runs hR) hparted
    exact (Scans.token hlead' (ih hs)).after_blanks hgap'

end Restyled

/-- The restyled text of a filter is read as the same tree with other names for its fields. -/
theorem Restyled.parse {R : String → String → Prop} (hrefl : ∀ a, R a a)
    (hR : ∀ a b, R a b → Text.eqIgnoreAsciiCase a b = true) {s s' : String} {ts ts' : List Token}
    {n : Node} (h : Restyled R s.toList ts s'.toList ts') (hs : Node.parse s = .ok n) :
    ∃ n', Node.parse s' = .ok n' ∧ n.Renames R n' := by
  obtain ⟨w, hw, hn⟩ := Node.parse_iff_scans.1 hs
  obtain rfl := hw.unique h.scans_left
  obtain ⟨n', hn', hrenames⟩ := hn.recased hrefl rfl h.recasing
  obtain ⟨r, hsteps, -⟩ := ParseState.sentence_iff_steps?.1 hn
  exact ⟨n', Node.parse_iff_scans.2 ⟨ts', h.scans_right hR hsteps, hn'⟩, hrenames⟩

end EntityQuery
