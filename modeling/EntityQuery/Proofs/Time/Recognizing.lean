import EntityQuery.Proofs.Time.Spelling

/-!
# What the readers of instants take

A reader takes a text off the front for what the text stands for, part by part. So each of the
readers of `Instant.read?` takes texts of date-times only, and what it finds is the instant that the
text stands for (`Instant.spelledBy_of_read?`).
-/

namespace EntityQuery

/-! ## Times of day -/

theorem Time.parts_of_of? {hour minute second nanos : Nat} {t : Time}
    (h : of? hour minute second nanos = some t) :
    hour ≤ 23 ∧ minute ≤ 59 ∧ second ≤ 60 ∧ (nanosPerSecond ≤ t.nanos ↔ second = 60) ∧
      t.second * nanosPerSecond + t.nanos =
        (hour * 3600 + minute * 60 + second) * nanosPerSecond + nanos := by
  have hperSecond : nanosPerSecond = 1000000000 := rfl
  obtain ⟨⟨hhour, hminute, hsecond, hnanos⟩, h⟩ := Option.ite_none_right_eq_some.1 h
  refine ⟨Nat.le_of_lt_succ hhour, Nat.le_of_lt_succ hminute, hsecond, ?_⟩
  by_cases hleap : second = 60
  · simp only [if_pos hleap] at h
    split at h
    · obtain rfl := Option.some.inj h
      refine ⟨iff_of_true (Nat.le_add_left _ _) hleap, ?_⟩
      simp only [hleap, hperSecond]
      omega
    · cases h
  · simp only [if_neg hleap] at h
    split at h
    · obtain rfl := Option.some.inj h
      exact ⟨iff_of_false (Nat.not_le.2 hnanos) hleap, rfl⟩
    · cases h

theorem ShownTime.denotes_of_local {s : ShownTime} {t : Time} {i : Instant}
    (ht : Time.of? s.hour s.minute s.second s.nanos = some t)
    (hi : Instant.ofLocal? s.date t s.offset = some i) : s.Denotes i := by
  obtain ⟨hhour, hminute, hsecond, hleap, hsum⟩ := Time.parts_of_of? ht
  obtain ⟨hnanos, hcount⟩ := Instant.count_ofLocal? hi
  refine ⟨hhour, hminute, hsecond, hnanos ▸ hleap, ?_⟩
  have hperSecond : nanosPerSecond = 1000000000 := rfl
  rw [hcount]
  simp only [hperSecond] at hsum ⊢
  omega

/-! ## Readers -/

namespace Reader

theorem bind_eq_some {α β : Type} {r : Reader α} {f : α → Reader β} {cs rest : List Char} {b : β}
    (h : (r >>= f) cs = some (b, rest)) :
    ∃ a mid, r cs = some (a, mid) ∧ f a mid = some (b, rest) := by
  rw [bind_apply] at h
  obtain ⟨⟨a, mid⟩, ha, hb⟩ := Option.bind_eq_some_iff.1 h
  exact ⟨a, mid, ha, hb⟩

theorem pure_eq_some {α : Type} {a b : α} {cs rest : List Char}
    (h : (pure a : Reader α) cs = some (b, rest)) : a = b ∧ cs = rest :=
  Prod.mk.inj (Option.some.inj h)

theorem lift_eq_some {α : Type} {o : Option α} {a : α} {cs rest : List Char}
    (h : (StateT.lift o : Reader α) cs = some (a, rest)) : o = some a ∧ cs = rest := by
  obtain ⟨b, hb, h⟩ := Option.bind_eq_some_iff.1 h
  obtain ⟨rfl, rfl⟩ := Prod.mk.inj (Option.some.inj h)
  exact ⟨hb, rfl⟩

variable {cs rest : List Char}

theorem satisfy_eq_some {p : Char → Bool} {c : Char} (h : satisfy p cs = some (c, rest)) :
    cs = c :: rest ∧ p c = true := by
  cases cs with
  | nil => cases h
  | cons d cs =>
    obtain ⟨hp, h⟩ := Option.ite_none_right_eq_some.1 h
    obtain ⟨rfl, rfl⟩ := Prod.mk.inj (Option.some.inj h)
    exact ⟨rfl, hp⟩

theorem skip_eq_some {c : Char} (h : skip c cs = some ((), rest)) : cs = c :: rest := by
  obtain ⟨d, mid, hd, hpure⟩ := bind_eq_some h
  obtain ⟨rfl, hc⟩ := satisfy_eq_some hd
  obtain ⟨-, rfl⟩ := pure_eq_some hpure
  rw [beq_iff_eq.1 hc]

theorem blanks_eq_some (h : blanks cs = some ((), rest)) :
    ∃ b, AllBlank b ∧ cs = b ++ rest := by
  obtain rfl := (Prod.mk.inj (Option.some.inj h)).2
  exact ⟨cs.takeWhile Text.isBlank, List.all_eq_true.1 List.all_takeWhile,
    List.takeWhile_append_dropWhile.symm⟩

theorem digits_eq_some {least most : Nat} {ds : List Char}
    (h : digits least most cs = some (ds, rest)) :
    NumberText least most ds (Decimal.digitsValue ds) ∧ cs = ds ++ rest := by
  unfold digits at h
  obtain ⟨hleast, h⟩ := Option.ite_none_right_eq_some.1 h
  obtain ⟨rfl, rfl⟩ := Prod.mk.inj (Option.some.inj h)
  have hprefix : (cs.take most).takeWhile Char.isDigit <+: cs :=
    (List.takeWhile_prefix _).trans (List.take_prefix _ _)
  have hlen := (List.takeWhile_prefix (l := cs.take most) Char.isDigit).length_le
  refine ⟨⟨List.all_eq_true.1 List.all_takeWhile, hleast, ?_, rfl⟩, ?_⟩
  · rw [List.length_take] at hlen
    omega
  · have htake := List.take_append_drop ((cs.take most).takeWhile Char.isDigit).length cs
    rw [← List.prefix_iff_eq_take.1 hprefix] at htake
    exact htake.symm

/-- Digits are left only where there are as many as may be. -/
theorem endsDigits_of_digits {least most : Nat} {ds : List Char}
    (h : digits least most cs = some (ds, rest)) : ds.length = most ∨ EndsDigits rest := by
  obtain ⟨htext, rfl⟩ := digits_eq_some h
  refine Decidable.or_iff_not_imp_left.2 fun hne c hc => Bool.eq_false_iff.2 fun hdigit => ?_
  obtain ⟨rest, rfl⟩ := List.head?_eq_some_iff.1 hc
  obtain ⟨k, hk⟩ : ∃ k, most - ds.length = k + 1 :=
    Nat.exists_eq_add_one.2 (Nat.sub_pos_of_lt (Nat.lt_of_le_of_ne htext.le_most hne))
  have hall : ((ds ++ c :: rest).take most).takeWhile Char.isDigit = ds :=
    (Prod.mk.inj (Option.some.inj (Option.ite_none_right_eq_some.1 h).2)).1
  rw [List.take_append, List.take_of_length_le htext.le_most, hk, List.take_succ_cons,
    List.takeWhile_append_of_pos htext.isDigit, List.takeWhile_cons_of_pos hdigit,
    List.append_right_eq_self] at hall
  cases hall

theorem number_eq_some {least most n : Nat} (h : number least most cs = some (n, rest)) :
    ∃ u, NumberText least most u n ∧ cs = u ++ rest := by
  obtain ⟨ds, mid, hds, hpure⟩ := bind_eq_some h
  obtain ⟨htext, hcs⟩ := digits_eq_some hds
  obtain ⟨rfl, rfl⟩ := pure_eq_some hpure
  exact ⟨ds, htext, hcs⟩

theorem shortNumber_eq_some {n : Nat} (h : shortNumber cs = some (n, rest)) :
    ∃ b u, AllBlank b ∧ NumberText 1 2 u n ∧ cs = b ++ (u ++ rest) := by
  obtain ⟨_, mid, hblanks, hnumber⟩ := bind_eq_some h
  obtain ⟨b, hb, rfl⟩ := blanks_eq_some hblanks
  obtain ⟨u, hu, rfl⟩ := number_eq_some hnumber
  exact ⟨b, u, hb, hu, rfl⟩

theorem longNumber_eq_some {n : Nat} (h : longNumber cs = some (n, rest)) :
    ∃ u, NumberText 1 u.length u n ∧ cs = u ++ rest := by
  obtain ⟨u, hu, hcs⟩ := number_eq_some h
  exact ⟨u, ⟨hu.isDigit, hu.least_le, Nat.le_refl _, hu.value⟩, hcs⟩

/-- Digits behind the ninth are passed over. -/
theorem fraction_eq_some {n : Nat} (h : fraction cs = some (n, rest)) :
    ∃ ds, (∀ d ∈ ds, d.isDigit = true) ∧ n = fractionNanos ds ∧ cs = pointChars ds ++ rest := by
  unfold fraction at h
  split at h
  · rename_i cs
    obtain ⟨front, mid, hfront, hback⟩ := bind_eq_some h
    obtain ⟨back, mid', hrest, hpure⟩ := bind_eq_some hback
    obtain ⟨hfronttext, hcs⟩ := digits_eq_some hfront
    obtain ⟨hbacktext, rfl⟩ := digits_eq_some hrest
    obtain ⟨rfl, rfl⟩ := pure_eq_some hpure
    have htake : (front ++ back).take 9 = front := by
      rcases endsDigits_of_digits hfront with hlen | hends
      · rw [← hlen, List.take_left]
      · cases back with
        | nil => rw [List.append_nil, List.take_of_length_le hfronttext.le_most]
        | cons c back =>
          have hc := hbacktext.isDigit c List.mem_cons_self
          rw [hends c rfl] at hc
          cases hc
    have hne : front ++ back ≠ [] :=
      List.append_ne_nil_of_left_ne_nil (List.length_pos_iff.1 hfronttext.least_le) back
    refine ⟨front ++ back, ?_, ?_, ?_⟩
    · exact fun d hd => (List.mem_append.1 hd).elim (hfronttext.isDigit d) (hbacktext.isDigit d)
    · rw [fractionNanos_eq, htake]
    · rw [pointChars, if_neg hne, hcs, List.cons_append, List.append_assoc]
  · obtain ⟨rfl, rfl⟩ := Prod.mk.inj (Option.some.inj h)
    exact ⟨[], List.forall_mem_nil _, rfl, rfl⟩

theorem year_eq_some {y : Int} (h : year cs = some (y, rest)) :
    ∃ b u, AllBlank b ∧ YearText u y ∧ cs = b ++ (u ++ rest) := by
  obtain ⟨_, mid, hblanks, hyear⟩ := bind_eq_some h
  obtain ⟨b, hb, rfl⟩ := blanks_eq_some hblanks
  split at hyear
  all_goals
    obtain ⟨⟨n, rest'⟩, hnumber, heq⟩ := Option.map_eq_some_iff.1 hyear
    obtain ⟨rfl, rfl⟩ := Prod.mk.inj heq
  · obtain ⟨u, hu, rfl⟩ := longNumber_eq_some hnumber
    exact ⟨b, _, hb, .minus hu, rfl⟩
  · obtain ⟨u, hu, rfl⟩ := longNumber_eq_some hnumber
    exact ⟨b, _, hb, .plus hu, rfl⟩
  · obtain ⟨u, hu, rfl⟩ := number_eq_some hnumber
    exact ⟨b, _, hb, .bare hu, rfl⟩

theorem looseDate_eq_some {d : Date} (h : looseDate cs = some (d, rest)) :
    ∃ u, DateText u d ∧ cs = u ++ rest := by
  obtain ⟨year, cs1, hyear, h1⟩ := bind_eq_some h
  obtain ⟨_, cs2, hhyphen, h2⟩ := bind_eq_some h1
  obtain ⟨month, cs3, hmonth, h3⟩ := bind_eq_some h2
  obtain ⟨_, cs4, hhyphen', h4⟩ := bind_eq_some h3
  obtain ⟨day, cs5, hday, h5⟩ := bind_eq_some h4
  obtain ⟨hdate, rfl⟩ := lift_eq_some h5
  obtain ⟨b, y, hb, hy, rfl⟩ := year_eq_some hyear
  obtain rfl := skip_eq_some hhyphen
  obtain ⟨b', m, hb', hm, rfl⟩ := shortNumber_eq_some hmonth
  obtain rfl := skip_eq_some hhyphen'
  obtain ⟨b'', d', hb'', hd, rfl⟩ := shortNumber_eq_some hday
  obtain ⟨rfl, rfl, rfl⟩ := Date.of?_eq_some hdate
  exact ⟨_, .mk hb hy hb' hm hb'' hd, by simp only [List.append_assoc, List.cons_append]⟩

theorem strictDate_eq_some {d : Date} (h : strictDate cs = some (d, rest)) :
    ∃ u, DateText u d ∧ cs = u ++ rest := by
  obtain ⟨year, cs1, hyear, h1⟩ := bind_eq_some h
  obtain ⟨_, cs2, hhyphen, h2⟩ := bind_eq_some h1
  obtain ⟨month, cs3, hmonth, h3⟩ := bind_eq_some h2
  obtain ⟨_, cs4, hhyphen', h4⟩ := bind_eq_some h3
  obtain ⟨day, cs5, hday, h5⟩ := bind_eq_some h4
  obtain ⟨hdate, rfl⟩ := lift_eq_some h5
  obtain ⟨y, hy, rfl⟩ := number_eq_some hyear
  obtain rfl := skip_eq_some hhyphen
  obtain ⟨m, hm, rfl⟩ := number_eq_some hmonth
  obtain rfl := skip_eq_some hhyphen'
  obtain ⟨d', hd, rfl⟩ := number_eq_some hday
  obtain ⟨hyear', rfl, rfl⟩ := Date.of?_eq_some hdate
  have hy' := YearText.bare (hy.widen (by decide) (Nat.le_refl 4))
  rw [← hyear'] at hy'
  refine ⟨_, .mk allBlank_nil hy' allBlank_nil (hm.widen (by decide) (Nat.le_refl 2))
    allBlank_nil (hd.widen (by decide) (Nat.le_refl 2)), ?_⟩
  simp only [List.append_assoc, List.cons_append, List.nil_append]

theorem separator_eq_some (h : separator cs = some ((), rest)) :
    ∃ c, (c = 'T' ∨ c = 't' ∨ c = ' ') ∧ cs = c :: rest := by
  obtain ⟨c, mid, hc, hpure⟩ := bind_eq_some h
  obtain ⟨rfl, hclass⟩ := satisfy_eq_some hc
  obtain ⟨-, rfl⟩ := pure_eq_some hpure
  refine ⟨c, ?_, rfl⟩
  rwa [Bool.or_eq_true, Bool.or_eq_true, beq_iff_eq, beq_iff_eq, beq_iff_eq, or_assoc] at hclass

theorem sign_eq_some {negative : Bool} (h : sign cs = some (negative, rest)) :
    ∃ c, (c = '+' ∨ c = '-' ∨ c = '\u2212') ∧ negative = (c != '+') ∧ cs = c :: rest := by
  obtain ⟨c, mid, hc, hpure⟩ := bind_eq_some h
  obtain ⟨rfl, hclass⟩ := satisfy_eq_some hc
  obtain ⟨rfl, rfl⟩ := pure_eq_some hpure
  refine ⟨c, ?_, rfl, rfl⟩
  rwa [Bool.or_eq_true, Bool.or_eq_true, beq_iff_eq, beq_iff_eq, beq_iff_eq, or_assoc] at hclass

theorem colonsOrBlanks_eq_some (h : colonsOrBlanks cs = some ((), rest)) :
    ∃ gap, (∀ d ∈ gap, d = ':' ∨ Text.isBlank d = true) ∧ cs = gap ++ rest := by
  obtain rfl := (Prod.mk.inj (Option.some.inj h)).2
  refine ⟨cs.takeWhile fun c => c == ':' || Text.isBlank c, fun d hd => ?_,
    List.takeWhile_append_dropWhile.symm⟩
  have hclass := List.all_eq_true.1 List.all_takeWhile d hd
  rwa [Bool.or_eq_true, beq_iff_eq] at hclass

/-- The reader of what stands between the hours and the minutes of an offset takes colons and
blanks. -/
def TakesGap (between : Reader Unit) : Prop :=
  ∀ cs rest, between cs = some ((), rest) →
    ∃ gap, (∀ d ∈ gap, d = ':' ∨ Text.isBlank d = true) ∧ cs = gap ++ rest

theorem takesGap_skip : TakesGap (skip ':') := fun _ _ h =>
  ⟨[':'], List.forall_mem_singleton.2 (.inl rfl), skip_eq_some h⟩

theorem takesGap_colonsOrBlanks : TakesGap colonsOrBlanks := fun _ _ h => colonsOrBlanks_eq_some h

theorem signedOffset_eq_some {between : Reader Unit} (hbetween : TakesGap between) {offset : Int}
    (h : signedOffset between cs = some (offset, rest)) {b : List Char} (hb : AllBlank b) :
    ∃ z, OffsetText (b ++ z) offset ∧ cs = z ++ rest := by
  obtain ⟨negative, cs1, hsign, h1⟩ := bind_eq_some h
  obtain ⟨hour, cs2, hhour, h2⟩ := bind_eq_some h1
  obtain ⟨_, cs3, hread, h3⟩ := bind_eq_some h2
  obtain ⟨minute, cs4, hminute, h4⟩ := bind_eq_some h3
  obtain ⟨c, hc, rfl, rfl⟩ := sign_eq_some hsign
  obtain ⟨u, hu, rfl⟩ := number_eq_some hhour
  obtain ⟨gap, hgap, rfl⟩ := hbetween _ _ hread
  obtain ⟨v, hv, rfl⟩ := number_eq_some hminute
  split at h4
  · cases h4
  · rename_i hrange
    rw [not_or, Nat.not_le, Nat.not_le] at hrange
    obtain ⟨rfl, rfl⟩ := pure_eq_some h4
    have htext := OffsetText.signed hb hc hu (Nat.le_of_lt_succ hrange.2) hgap hv
      (Nat.le_of_lt_succ hrange.1)
    refine ⟨c :: (u ++ (gap ++ v)), ?_, by simp only [List.append_assoc, List.cons_append]⟩
    by_cases hplus : c = '+'
    · rw [if_pos hplus] at htext
      rw [hplus] at htext ⊢
      exact htext
    · rw [if_neg hplus] at htext
      have hminus : (c != '+') = true := bne_iff_ne.2 hplus
      rw [if_pos hminus]
      exact htext

theorem offsetOrZ_eq_some {between : Reader Unit} (hbetween : TakesGap between) {offset : Int}
    (h : offsetOrZ between cs = some (offset, rest)) :
    ∃ z, OffsetText z offset ∧ cs = z ++ rest := by
  unfold offsetOrZ at h
  split at h
  · obtain ⟨rfl, rfl⟩ := Prod.mk.inj (Option.some.inj h)
    exact ⟨_, .utc (.inl rfl), rfl⟩
  · obtain ⟨rfl, rfl⟩ := Prod.mk.inj (Option.some.inj h)
    exact ⟨_, .utc (.inr rfl), rfl⟩
  · exact signedOffset_eq_some hbetween h allBlank_nil

/-! ## Shapes -/

theorem spelledBy_of_parts {u : List Char} {s : ShownTime} {t : Time} {i : Instant}
    (htext : DateTimeText u s) (ht : Time.of? s.hour s.minute s.second s.nanos = some t)
    (hi : Instant.ofLocal? s.date t s.offset = some i) : i.SpelledBy u :=
  ⟨s, htext, s.denotes_of_local ht hi⟩

variable {i : Instant}

theorem spelledBy_of_strict (h : Reader.strict cs = some (i, [])) : i.SpelledBy cs := by
  obtain ⟨date, cs1, hdate, h1⟩ := bind_eq_some h
  obtain ⟨_, cs2, hseparator, h2⟩ := bind_eq_some h1
  obtain ⟨hour, cs3, hhour, h3⟩ := bind_eq_some h2
  obtain ⟨_, cs4, hcolon, h4⟩ := bind_eq_some h3
  obtain ⟨minute, cs5, hminute, h5⟩ := bind_eq_some h4
  obtain ⟨_, cs6, hcolon', h6⟩ := bind_eq_some h5
  obtain ⟨second, cs7, hsecond, h7⟩ := bind_eq_some h6
  obtain ⟨nanos, cs8, hnanos, h8⟩ := bind_eq_some h7
  obtain ⟨offset, cs9, hoffset, h9⟩ := bind_eq_some h8
  obtain ⟨time, cs10, htime, h10⟩ := bind_eq_some h9
  obtain ⟨ht, rfl⟩ := lift_eq_some htime
  obtain ⟨hi, rfl⟩ := lift_eq_some h10
  obtain ⟨u, hu, rfl⟩ := strictDate_eq_some hdate
  obtain ⟨c, hc, rfl⟩ := separator_eq_some hseparator
  obtain ⟨hs, hhs, rfl⟩ := number_eq_some hhour
  obtain rfl := skip_eq_some hcolon
  obtain ⟨ms, hms, rfl⟩ := number_eq_some hminute
  obtain rfl := skip_eq_some hcolon'
  obtain ⟨ss, hss, rfl⟩ := number_eq_some hsecond
  obtain ⟨ds, hds, rfl, rfl⟩ := fraction_eq_some hnanos
  obtain ⟨z, hz, rfl⟩ := offsetOrZ_eq_some takesGap_skip hoffset
  have hseconds := SecondsText.seconds allBlank_nil
    (hss.widen (by decide) (Nat.le_refl 2)) hds
  have htext := DateTimeText.clock hu hc allBlank_nil
    (hhs.widen (by decide) (Nat.le_refl 2)) allBlank_nil
    (hms.widen (by decide) (Nat.le_refl 2)) hseconds hz
  simp only [List.append_nil, List.nil_append, List.append_assoc, List.cons_append] at htext ⊢
  exact spelledBy_of_parts htext ht hi

/-- The date and the minutes in front of what the loose readers read. -/
theorem loose_eq_some {f : Date → Nat → Nat → Reader Instant}
    (h : (do
      let date ← looseDate
      skip 'T'
      let hour ← shortNumber
      skip ':'
      let minute ← shortNumber
      f date hour minute : Reader Instant) cs = some (i, [])) :
    ∃ date hour minute mid, f date hour minute mid = some (i, []) ∧
      ∀ {s z : List Char} {second nanos : Nat} {offset : Int}, SecondsText s second nanos →
        OffsetText z offset → mid = s ++ z →
          DateTimeText cs ⟨date, hour, minute, second, nanos, offset⟩ := by
  obtain ⟨date, cs1, hdate, h1⟩ := bind_eq_some h
  obtain ⟨_, cs2, hseparator, h2⟩ := bind_eq_some h1
  obtain ⟨hour, cs3, hhour, h3⟩ := bind_eq_some h2
  obtain ⟨_, cs4, hcolon, h4⟩ := bind_eq_some h3
  obtain ⟨minute, mid, hminute, h5⟩ := bind_eq_some h4
  obtain ⟨u, hu, rfl⟩ := looseDate_eq_some hdate
  obtain rfl := skip_eq_some hseparator
  obtain ⟨b, hs, hb, hhs, rfl⟩ := shortNumber_eq_some hhour
  obtain rfl := skip_eq_some hcolon
  obtain ⟨b', ms, hb', hms, rfl⟩ := shortNumber_eq_some hminute
  refine ⟨date, hour, minute, mid, h5, fun hseconds hz hmid => ?_⟩
  rw [hmid]
  exact .clock hu (.inl rfl) hb hhs hb' hms hseconds hz

theorem spelledBy_of_minuteOffset (h : Reader.minuteOffset cs = some (i, [])) :
    i.SpelledBy cs := by
  obtain ⟨date, hour, minute, mid, hback, htext⟩ := loose_eq_some h
  obtain ⟨_, mid1, hblanks, h1⟩ := bind_eq_some hback
  obtain ⟨offset, mid2, hoffset, h2⟩ := bind_eq_some h1
  obtain ⟨time, mid3, htime, h3⟩ := bind_eq_some h2
  obtain ⟨ht, rfl⟩ := lift_eq_some htime
  obtain ⟨hi, rfl⟩ := lift_eq_some h3
  obtain ⟨b, hb, rfl⟩ := blanks_eq_some hblanks
  obtain ⟨z, hz, rfl⟩ := signedOffset_eq_some takesGap_colonsOrBlanks hoffset hb
  exact spelledBy_of_parts (htext .none hz (by rw [List.append_nil, List.nil_append])) ht hi

theorem spelledBy_of_secondUtc (h : Reader.secondUtc cs = some (i, [])) : i.SpelledBy cs := by
  obtain ⟨date, hour, minute, mid, hback, htext⟩ := loose_eq_some h
  obtain ⟨_, mid1, hcolon, h1⟩ := bind_eq_some hback
  obtain ⟨second, mid2, hsecond, h2⟩ := bind_eq_some h1
  obtain ⟨nanos, mid3, hnanos, h3⟩ := bind_eq_some h2
  obtain ⟨time, mid4, htime, h4⟩ := bind_eq_some h3
  obtain ⟨ht, rfl⟩ := lift_eq_some htime
  obtain ⟨rfl, rfl⟩ := pure_eq_some h4
  obtain rfl := skip_eq_some hcolon
  obtain ⟨b, ss, hb, hss, rfl⟩ := shortNumber_eq_some hsecond
  obtain ⟨ds, hds, rfl, rfl⟩ := fraction_eq_some hnanos
  refine spelledBy_of_parts (htext (.seconds hb hss hds) .none ?_) ht (ofLocal?_zero date time)
  simp only [List.append_nil]

theorem spelledBy_of_minuteUtc (h : Reader.minuteUtc cs = some (i, [])) : i.SpelledBy cs := by
  obtain ⟨date, hour, minute, mid, hback, htext⟩ := loose_eq_some h
  obtain ⟨time, mid1, htime, h1⟩ := bind_eq_some hback
  obtain ⟨ht, rfl⟩ := lift_eq_some htime
  obtain ⟨rfl, rfl⟩ := pure_eq_some h1
  exact spelledBy_of_parts (htext .none .none rfl) ht (ofLocal?_zero date time)

theorem spelledBy_of_dateAlone (h : Reader.dateAlone cs = some (i, [])) : i.SpelledBy cs := by
  obtain ⟨date, mid, hdate, hpure⟩ := bind_eq_some h
  obtain ⟨rfl, rfl⟩ := pure_eq_some hpure
  obtain ⟨u, hu, rfl⟩ := looseDate_eq_some hdate
  rw [List.append_nil]
  have hmidnight : Time.of? 0 0 0 0 = some .midnight := by decide
  exact spelledBy_of_parts (.date hu) hmidnight (ofLocal?_zero date .midnight)

theorem whole_eq_some {α : Type} {r : Reader α} {a : α} (h : r.whole cs = some a) :
    r cs = some (a, []) := by
  unfold whole at h
  split at h
  · rename_i heq
    rw [heq, Option.some.inj h]
  · cases h

end Reader

/-- What is read from a text is the instant that it stands for. -/
theorem Instant.spelledBy_of_read? {s : String} {i : Instant} (h : read? s = some i) :
    i.SpelledBy s.toList := by
  unfold read? at h
  rcases orElse_eq_some.1 h with hstrict | ⟨-, h⟩
  · exact Reader.spelledBy_of_strict (Reader.whole_eq_some hstrict)
  rcases orElse_eq_some.1 h with hoffset | ⟨-, h⟩
  · exact Reader.spelledBy_of_minuteOffset (Reader.whole_eq_some hoffset)
  rcases orElse_eq_some.1 h with hsecond | ⟨-, h⟩
  · exact Reader.spelledBy_of_secondUtc (Reader.whole_eq_some hsecond)
  rcases orElse_eq_some.1 h with hminute | ⟨-, h⟩
  · exact Reader.spelledBy_of_minuteUtc (Reader.whole_eq_some hminute)
  · exact Reader.spelledBy_of_dateAlone (Reader.whole_eq_some h)

end EntityQuery
