import EntityQuery.Text.Case

/-!
# Lower case

Texts that differ in the case of the letters A to Z only have one lower case
(`lower_eq_of_eqIgnoreAsciiCase`), since no rule behind it looks at that case. What `lower` leaves
has no lower-case form of its own, so that it changes nothing the second time (`lower_lower`).
-/

namespace EntityQuery.Text

/-! ## The case of the letters A to Z -/

theorem eqIgnoreAsciiCase_iff {s t : String} :
    eqIgnoreAsciiCase s t = true ↔ s.toList.map Char.toLower = t.toList.map Char.toLower :=
  beq_iff_eq

theorem eqIgnoreAsciiCase_symm {s t : String} (h : eqIgnoreAsciiCase s t = true) :
    eqIgnoreAsciiCase t s = true :=
  eqIgnoreAsciiCase_iff.2 (eqIgnoreAsciiCase_iff.1 h).symm

theorem eqIgnoreAsciiCase_trans {s t u : String} (h : eqIgnoreAsciiCase s t = true)
    (h' : eqIgnoreAsciiCase t u = true) : eqIgnoreAsciiCase s u = true :=
  eqIgnoreAsciiCase_iff.2 ((eqIgnoreAsciiCase_iff.1 h).trans (eqIgnoreAsciiCase_iff.1 h'))

theorem eqIgnoreAsciiCase_refl (s : String) : eqIgnoreAsciiCase s s = true :=
  eqIgnoreAsciiCase_iff.2 rfl

/-- From 128 on no character is a capital letter of those from A to Z. -/
theorem toLower_of_le {c : Char} (h : 128 ≤ c.toNat) : c.toLower = c := by
  have hnot : ¬ (c.val ≥ 'A'.val ∧ c.val ≤ 'Z'.val) := by
    rintro ⟨-, hZ⟩
    have hle : c.toNat ≤ 90 := UInt32.le_iff_toNat_le.1 hZ
    omega
  exact dif_neg hnot

/-- What holds of a character and itself holds of it and its small letter, if it does so below
128. -/
theorem toLower_induction {P : Char → Char → Prop} (hsame : ∀ c, P c c)
    (hascii : ∀ n < 128, P (Char.ofNat n) (Char.ofNat n).toLower) (c : Char) : P c c.toLower := by
  by_cases h : c.toNat < 128
  · have hc := hascii c.toNat h
    rwa [Char.ofNat_toNat] at hc
  · rw [toLower_of_le (Nat.le_of_not_lt h)]
    exact hsame c

theorem lowerChar_toLower (c : Char) : lowerChar c.toLower = lowerChar c :=
  toLower_induction (P := fun c d => lowerChar d = lowerChar c) (fun _ => rfl) (by decide) c

theorem isCased_toLower (c : Char) : isCased c.toLower = isCased c :=
  toLower_induction (P := fun c d => isCased d = isCased c) (fun _ => rfl) (by decide) c

theorem Ranges.mem_filter_start (rs : Ranges) {n b : Nat} (h : n < b) :
    Ranges.mem (rs.filter (·.1 < b)) n = rs.mem n := by
  induction rs with
  | nil => rfl
  | cons r rs ih =>
    unfold Ranges.mem at ih ⊢
    by_cases hr : r.1 < b
    · rw [List.filter_cons_of_pos (by simpa using hr), List.any_cons, List.any_cons, ih]
    · have hout : ¬ r.1 ≤ n := by omega
      rw [List.filter_cons_of_neg (by simpa using hr), List.any_cons, ih, decide_eq_false hout,
        Bool.false_and, Bool.false_or]

/-- What is passed over below 128. -/
def asciiIgnorable : Ranges := ignorableRanges.filter (·.1 < 128)

theorem asciiIgnorable_eq :
    asciiIgnorable = [(0x27, 0x27), (0x2E, 0x2E), (0x3A, 0x3A), (0x5E, 0x5E), (0x60, 0x60)] := by
  decide

theorem ignorable_toLower (c : Char) :
    ignorableRanges.mem c.toLower.toNat = ignorableRanges.mem c.toNat := by
  refine toLower_induction
    (P := fun c d => ignorableRanges.mem d.toNat = ignorableRanges.mem c.toNat)
    (fun _ => rfl) (fun n hn => ?_) c
  have hascii : ∀ n < 128, (Char.ofNat n).toNat < 128 ∧ (Char.ofNat n).toLower.toNat < 128 ∧
      asciiIgnorable.mem (Char.ofNat n).toLower.toNat =
        asciiIgnorable.mem (Char.ofNat n).toNat := by
    rw [asciiIgnorable_eq]
    decide
  obtain ⟨hchar, hlower, heq⟩ := hascii n hn
  rwa [asciiIgnorable, Ranges.mem_filter_start _ hchar, Ranges.mem_filter_start _ hlower] at heq

theorem toLower_eq_sigma (c : Char) : c.toLower = '\u03a3' ↔ c = '\u03a3' :=
  toLower_induction (P := fun c d => d = '\u03a3' ↔ c = '\u03a3') (fun _ => .rfl) (by decide) c

theorem meetsCased_map_toLower (cs : List Char) :
    meetsCased (cs.map Char.toLower) = meetsCased cs := by
  have hdrop : (cs.map Char.toLower).dropWhile (fun c => ignorableRanges.mem c.toNat) =
      (cs.dropWhile fun c => ignorableRanges.mem c.toNat).map Char.toLower := by
    rw [List.dropWhile_map]
    congr 2
    exact funext ignorable_toLower
  rw [meetsCased, meetsCased, hdrop]
  cases cs.dropWhile fun c => ignorableRanges.mem c.toNat with
  | nil => rfl
  | cons c _ => exact isCased_toLower c

theorem lowerAfter_map_toLower (before cs : List Char) :
    lowerAfter (before.map Char.toLower) (cs.map Char.toLower) = lowerAfter before cs := by
  induction cs generalizing before with
  | nil => rfl
  | cons c cs ih =>
    have hsigma : sigma (before.map Char.toLower) (cs.map Char.toLower) = sigma before cs := by
      rw [sigma, sigma, meetsCased_map_toLower, meetsCased_map_toLower]
    rw [List.map_cons, lowerAfter, lowerAfter, hsigma, lowerChar_toLower, ← List.map_cons, ih]
    simp only [toLower_eq_sigma]

theorem lower_eq_of_eqIgnoreAsciiCase {s t : String} (h : eqIgnoreAsciiCase s t = true) :
    lower s = lower t := by
  rw [eqIgnoreAsciiCase_iff] at h
  rw [lower, lower, ← lowerAfter_map_toLower [] s.toList, h, lowerAfter_map_toLower]

/-! ## Lower case twice -/

/-- The code points of a run. -/
def Run.codes (r : Run) : List Nat :=
  (List.range ((r.last - r.first) / r.step + 1)).map fun i => r.first + i * r.step

theorem Run.mem_codes {r : Run} {n : Nat} (h : r.mem n = true) : n ∈ r.codes := by
  simp only [mem, Bool.and_eq_true, decide_eq_true_eq, beq_iff_eq] at h
  obtain ⟨⟨hfirst, hlast⟩, hstep⟩ := h
  refine List.mem_map.2 ⟨(n - r.first) / r.step, List.mem_range.2 ?_, ?_⟩
  · have hle : (n - r.first) / r.step ≤ (r.last - r.first) / r.step :=
      Nat.div_le_div_right (Nat.sub_le_sub_right hlast _)
    omega
  · rw [Nat.div_mul_cancel (Nat.dvd_of_mod_eq_zero hstep)]
    omega

/-- The set of some numbers, as the bits of one. -/
def bits (ns : List Nat) : Nat := ns.foldr (fun n b => 1 <<< n ||| b) 0

theorem testBit_bits {ns : List Nat} {n : Nat} : (bits ns).testBit n = true ↔ n ∈ ns := by
  induction ns with
  | nil => simp [bits]
  | cons k ks ih =>
    show (1 <<< k ||| bits ks).testBit n = true ↔ _
    rw [Nat.testBit_or, Bool.or_eq_true, ih, Nat.one_shiftLeft, Nat.testBit_two_pow,
      decide_eq_true_eq, List.mem_cons, eq_comm]

/-- The set of all that are in one of some sets. -/
def union (bs : List Nat) : Nat := bs.foldr (· ||| ·) 0

theorem testBit_union {bs : List Nat} {n : Nat} :
    (union bs).testBit n = true ↔ ∃ b ∈ bs, b.testBit n = true := by
  induction bs with
  | nil => simp [union]
  | cons b bs ih =>
    show (b ||| union bs).testBit n = true ↔ _
    rw [Nat.testBit_or, Bool.or_eq_true, ih]
    simp only [List.mem_cons, exists_eq_or_imp]

/-- The characters with a lower-case form. -/
def upperBits : Nat := union (bits [0x130] :: lowerRuns.map fun p => bits p.1.codes)

/-- The lower-case forms: those of U+0130, those of a sigma and those of the runs. -/
def lowerBits : Nat :=
  union (bits [0x69, 0x307, 0x3C2, 0x3C3] ::
    lowerRuns.map fun p => bits (p.1.codes.map fun n : Nat => ((n : Int) + p.2).toNat))

/-- No lower-case form has one of its own. -/
theorem upperBits_and_lowerBits : upperBits &&& lowerBits = 0 := by decide +kernel

theorem testBit_upperBits {p : Run × Int} (hp : p ∈ lowerRuns) {n : Nat} (h : p.1.mem n = true) :
    upperBits.testBit n = true :=
  testBit_union.2 ⟨_, List.mem_cons_of_mem _ (List.mem_map_of_mem hp),
    testBit_bits.2 (Run.mem_codes h)⟩

theorem testBit_lowerBits {p : Run × Int} (hp : p ∈ lowerRuns) {n : Nat} (h : p.1.mem n = true) :
    lowerBits.testBit ((n : Int) + p.2).toNat = true :=
  testBit_union.2 ⟨_, List.mem_cons_of_mem _ (List.mem_map_of_mem hp),
    testBit_bits.2 (List.mem_map.2 ⟨n, Run.mem_codes h, rfl⟩)⟩

theorem testBit_lowerBits_of_mem {n : Nat} (h : n ∈ [0x69, 0x307, 0x3C2, 0x3C3]) :
    lowerBits.testBit n = true :=
  testBit_union.2 ⟨_, List.mem_cons_self, testBit_bits.2 h⟩

/-- A character that is its own lower case wherever it stands. -/
def IsLowered (c : Char) : Prop := lowerChar c = [c]

theorem IsLowered.ne_sigma {c : Char} (h : IsLowered c) : c ≠ '\u03a3' := by
  rintro rfl
  have hself : lowerChar '\u03a3' = ['\u03a3'] := h
  exact absurd hself (by decide)

/-- A lower-case form is its own lower case. -/
theorem isLowered_of_testBit {c : Char} (h : lowerBits.testBit c.toNat = true) : IsLowered c := by
  have hupper : upperBits.testBit c.toNat = false := by
    have hboth : (upperBits &&& lowerBits).testBit c.toNat = false := by
      rw [upperBits_and_lowerBits, Nat.zero_testBit]
    rwa [Nat.testBit_and, h, Bool.and_true] at hboth
  have hnot : ∀ p ∈ lowerRuns, p.1.mem c.toNat = false := by
    refine fun p hp => Bool.eq_false_iff.2 fun hmem => ?_
    rw [testBit_upperBits hp hmem] at hupper
    cases hupper
  have hdotted : c ≠ '\u0130' := by
    rintro rfl
    have hmem : upperBits.testBit 0x130 = true :=
      testBit_union.2 ⟨_, List.mem_cons_self, testBit_bits.2 List.mem_cons_self⟩
    exact Bool.false_ne_true (hupper.symm.trans hmem)
  by_cases hlt : c.toNat < 128
  · have hcapitals : (⟨⟨0x41, 0x5A, 1⟩, 32⟩ : Run × Int) ∈ lowerRuns := List.mem_cons_self
    have hascii : ∀ n < 128, Run.mem ⟨0x41, 0x5A, 1⟩ n = false →
        lowerChar (Char.ofNat n) = [Char.ofNat n] := by
      decide
    have hc := hascii c.toNat hlt (hnot _ hcapitals)
    rwa [Char.ofNat_toNat] at hc
  · have hfind : lowerRuns.find? (·.1.mem c.toNat) = none :=
      List.find?_eq_none.2 fun p hp => Bool.eq_false_iff.1 (hnot p hp)
    rw [IsLowered, lowerChar, if_neg hlt, if_neg hdotted, hfind]

theorem isLowered_ofNat {n : Nat} (h : lowerBits.testBit n = true) : IsLowered (Char.ofNat n) := by
  by_cases hvalid : n.isValidChar
  · have hn : (Char.ofNat n).toNat = n := by
      rw [Char.ofNat, dif_pos hvalid]
      rfl
    exact isLowered_of_testBit (hn.symm ▸ h)
  · have hzero : Char.ofNat n = '\x00' := dif_neg hvalid
    rw [hzero]
    rfl

/-- What a character is lowered to is its own lower case. -/
theorem isLowered_of_mem_lowerChar {c d : Char} (h : d ∈ lowerChar c) : IsLowered d := by
  by_cases hlt : c.toNat < 128
  · have hascii : ∀ n < 128, lowerChar (Char.ofNat n).toLower = [(Char.ofNat n).toLower] := by
      decide
    have hlower := hascii c.toNat hlt
    rw [Char.ofNat_toNat] at hlower
    rw [lowerChar_of_ascii hlt, List.mem_singleton] at h
    exact h ▸ hlower
  by_cases hdotted : c = '\u0130'
  · rw [lowerChar, if_neg hlt, if_pos hdotted] at h
    rcases List.mem_cons.1 h with rfl | h
    · exact isLowered_of_testBit (testBit_lowerBits_of_mem (by decide))
    · obtain rfl := List.mem_singleton.1 h
      exact isLowered_of_testBit (testBit_lowerBits_of_mem (by decide))
  cases hfind : lowerRuns.find? (·.1.mem c.toNat) with
  | some p =>
    rw [lowerChar, if_neg hlt, if_neg hdotted, hfind, List.mem_singleton] at h
    have hmem : p.1.mem c.toNat = true := by simpa using List.find?_some hfind
    exact h ▸ isLowered_ofNat (testBit_lowerBits (List.mem_of_find?_eq_some hfind) hmem)
  | none =>
    have hself : lowerChar c = [c] := by rw [lowerChar, if_neg hlt, if_neg hdotted, hfind]
    rw [hself, List.mem_singleton] at h
    exact h ▸ hself

theorem isLowered_sigma (before after : List Char) : IsLowered (sigma before after) := by
  unfold sigma
  split
  · exact isLowered_of_testBit (testBit_lowerBits_of_mem (by decide))
  · exact isLowered_of_testBit (testBit_lowerBits_of_mem (by decide))

theorem isLowered_of_mem_lowerAfter {before cs : List Char} :
    ∀ d ∈ lowerAfter before cs, IsLowered d := by
  induction cs generalizing before with
  | nil => exact nofun
  | cons c cs ih =>
    intro d hd
    rw [lowerAfter, List.mem_append] at hd
    rcases hd with hd | hd
    · split at hd
      · exact List.mem_singleton.1 hd ▸ isLowered_sigma before cs
      · exact isLowered_of_mem_lowerChar hd
    · exact ih d hd

theorem lowerAfter_of_isLowered {before cs : List Char} (h : ∀ c ∈ cs, IsLowered c) :
    lowerAfter before cs = cs := by
  induction cs generalizing before with
  | nil => rfl
  | cons c cs ih =>
    obtain ⟨hc, hcs⟩ := List.forall_mem_cons.1 h
    have hform : lowerChar c = [c] := hc
    rw [lowerAfter, if_neg hc.ne_sigma, hform, ih hcs, List.singleton_append]

/-- Lower case stays as it is. -/
theorem lower_lower (s : String) : lower (lower s) = lower s := by
  rw [lower, lower, String.toList_ofList, lowerAfter_of_isLowered isLowered_of_mem_lowerAfter]

end EntityQuery.Text
