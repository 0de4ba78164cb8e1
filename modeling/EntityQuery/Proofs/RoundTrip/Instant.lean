import EntityQuery.Proofs.Time.Numbers

/-!
# Instants read back from their text

The digits that `padded` writes are read back as the number, and with them dates and times of day.
A leap second that does not end a minute is written as the next second, so that what a text holds is
the instant with that settled (`Instant.settled`). `readOffset?_text` says that the reader for data
reads it from the text of every instant, and `read?_text` that the strict reader does so for the
years from 0 to 9999, which have no sign.
-/

namespace EntityQuery

namespace Decimal

theorem digitsValue_replicate_zero_append (k : Nat) (ds : List Char) :
    digitsValue (List.replicate k '0' ++ ds) = digitsValue ds := by
  show Nat.ofDigitChars 10 (List.replicate k '0' ++ ds) 0 = Nat.ofDigitChars 10 ds 0
  rw [Nat.ofDigitChars_append, Nat.ofDigitChars_replicate_zero, Nat.mul_zero]

theorem digitsValue_toDigits (n : Nat) : digitsValue (Nat.toDigits 10 n) = n :=
  Nat.ofDigitChars_ten_toDigits

end Decimal

/-! ## Leap seconds -/

namespace Time

/-- A leap second, if the time is in one, follows the last second of a minute. -/
def IsRegular (t : Time) : Prop := nanosPerSecond ≤ t.nanos → t.second % 60 = 59

instance (t : Time) : Decidable t.IsRegular := by unfold IsRegular; infer_instance

/-- After any other second than the last one of a minute there is one more on the day. -/
theorem isTime_succ {t : Time} (h : ¬ t.IsRegular) :
    IsTime (t.second + 1) (t.nanos - nanosPerSecond) := by
  have hperDay : secondsPerDay = 86400 := rfl
  obtain ⟨hsecond, hnanos⟩ := t.isTime
  obtain ⟨-, hend⟩ := Classical.not_imp.1 h
  rw [hperDay] at hsecond
  refine ⟨?_, by omega⟩
  rw [hperDay]
  omega

/-- The time with a leap second that does not end its minute made the next second. -/
def settled (t : Time) : Time :=
  if h : t.IsRegular then t else ⟨t.second + 1, t.nanos - nanosPerSecond, isTime_succ h⟩

theorem settled_of_isRegular {t : Time} (h : t.IsRegular) : t.settled = t := dif_pos h

theorem settled_of_not_isRegular {t : Time} (h : ¬ t.IsRegular) :
    t.settled = ⟨t.second + 1, t.nanos - nanosPerSecond, isTime_succ h⟩ := dif_neg h

end Time

namespace Instant

def IsRegular (i : Instant) : Prop := i.time.IsRegular

instance (i : Instant) : Decidable i.IsRegular := by unfold IsRegular; infer_instance

def settled (i : Instant) : Instant := { i with time := i.time.settled }

theorem settled_of_isRegular {i : Instant} (h : i.IsRegular) : i.settled = i := by
  rw [settled, Time.settled_of_isRegular h]

theorem isRegular_settled (i : Instant) : i.settled.IsRegular := by
  by_cases h : i.time.IsRegular
  · rw [settled_of_isRegular h]
    exact h
  · have hnanos := i.time.isTime.2
    rw [IsRegular, settled, Time.settled_of_not_isRegular h]
    intro hleap
    dsimp only at hleap
    omega

/-- Settled are exactly the instants that do not change by it. -/
theorem settled_eq_iff {i : Instant} : i.settled = i ↔ i.IsRegular :=
  ⟨fun h => h ▸ isRegular_settled i, settled_of_isRegular⟩

end Instant

/-! ## Digits -/

namespace Instant

theorem digitsValue_padded (width n : Nat) : Decimal.digitsValue (padded width n) = n := by
  rw [padded, Decimal.digitsValue_replicate_zero_append, Decimal.digitsValue_toDigits]

theorem length_padded {width n : Nat} (hw : 0 < width) (h : n < tenTo width) :
    (padded width n).length = width := by
  have hle : (Nat.toDigits 10 n).length ≤ width := (Nat.length_toDigits_le_iff (by decide) hw).2 h
  simp only [padded, List.length_append, List.length_replicate]
  omega

theorem length_padded_pos (width n : Nat) : 0 < (padded width n).length := by
  have := Nat.length_toDigits_pos (b := 10) (n := n)
  simp only [padded, List.length_append]
  omega

theorem isDigit_of_mem_padded {width n : Nat} {c : Char} (h : c ∈ padded width n) :
    c.isDigit = true := by
  rcases List.mem_append.1 h with h | h
  · rw [List.eq_of_mem_replicate h]; rfl
  · exact Nat.isDigit_of_mem_toDigits (by decide) (by decide) h

theorem numberText_padded {width n : Nat} (hw : 0 < width) (h : n < tenTo width) :
    NumberText width width (padded width n) n where
  isDigit _ := isDigit_of_mem_padded
  least_le := Nat.le_of_eq (length_padded hw h).symm
  le_most := Nat.le_of_eq (length_padded hw h)
  value := digitsValue_padded width n

/-- The years of all dates are written as years, those with a sign too. -/
theorem yearText_yearChars (y : Int) : YearText (yearChars y) y := by
  have hlong : NumberText 1 (padded 4 y.natAbs).length (padded 4 y.natAbs) y.natAbs :=
    ⟨fun _ => isDigit_of_mem_padded, length_padded_pos 4 y.natAbs, Nat.le_refl _,
      digitsValue_padded 4 y.natAbs⟩
  unfold yearChars
  split
  · rename_i h
    have hnumber : NumberText 4 4 (padded 4 y.toNat) y.toNat :=
      numberText_padded (by decide) (by show _ < 10000; omega)
    have hyear := YearText.bare (hnumber.widen (by decide) (Nat.le_refl 4))
    rwa [Int.toNat_of_nonneg h.1] at hyear
  · split
    · rename_i hneg
      have hyear := YearText.minus hlong
      rwa [Int.ofNat_natAbs_of_nonpos (Int.le_of_lt hneg), Int.neg_neg] at hyear
    · rename_i hpos
      have hyear := YearText.plus hlong
      rwa [Int.natAbs_of_nonneg (Int.not_lt.1 hpos)] at hyear

end Instant

namespace Reader

/-- A number of fixed width is read whatever follows. -/
theorem number_padded (width : Nat) {n : Nat} (hw : 0 < width) (h : n < tenTo width)
    (rest : List Char) :
    number width width (Instant.padded width n ++ rest) = some (n, rest) :=
  number_append (Instant.numberText_padded hw h) (.inl (Instant.length_padded hw h))

theorem shortNumber_padded {n : Nat} (h : n < 100) (rest : List Char) :
    shortNumber (Instant.padded 2 n ++ rest) = some (n, rest) := by
  have htext : NumberText 2 2 (Instant.padded 2 n) n := Instant.numberText_padded (by decide) h
  have hlen : (Instant.padded 2 n).length = 2 := Instant.length_padded (by decide) h
  rw [← List.nil_append (Instant.padded 2 n ++ rest)]
  exact shortNumber_append allBlank_nil (htext.widen (by decide) (Nat.le_refl 2)) (.inl hlen)

theorem separator_cons (rest : List Char) : separator ('T' :: rest) = some ((), rest) := rfl

theorem offsetOrZ_cons (between : Reader Unit) (rest : List Char) :
    offsetOrZ between ('Z' :: rest) = some (0, rest) := rfl

/-! ## Dates -/

theorem date_lt (d : Date) : d.month < 100 ∧ d.day < 100 := by
  obtain ⟨-, ⟨-, hm⟩, -, hd⟩ := d.isDate
  have h31 : daysInMonth d.year d.month ≤ 31 := by
    unfold daysInMonth
    split
    · split <;> decide
    · decide
    · decide
    · decide
    · decide
    · decide
  omega

theorem strictDate_dateChars {d : Date} (h : 0 ≤ d.year ∧ d.year ≤ 9999) (rest : List Char) :
    strictDate (Instant.dateChars d ++ rest) = some (d, rest) := by
  obtain ⟨hm, hd⟩ := date_lt d
  have hy : d.year.toNat < tenTo 4 := by
    show _ < 10000
    omega
  have hyear : ((d.year.toNat : Nat) : Int) = d.year := Int.toNat_of_nonneg h.1
  simp only [Instant.dateChars, Instant.yearChars, if_pos h, List.append_assoc, List.cons_append]
  rw [strictDate, bind_of_eq (number_padded 4 (by decide) hy _), bind_of_eq (skip_cons '-' _),
    bind_of_eq (number_padded 2 (by decide) hm _), bind_of_eq (skip_cons '-' _),
    bind_of_eq (number_padded 2 (by decide) hd _), hyear, lift_some (Date.of?_parts d)]

/-- The years of all dates are read back. -/
theorem year_yearChars (y : Int) (rest : List Char) :
    year (Instant.yearChars y ++ '-' :: rest) = some (y, '-' :: rest) := by
  rw [← List.nil_append (Instant.yearChars y ++ '-' :: rest)]
  exact year_append allBlank_nil (Instant.yearText_yearChars y) (endsDigits_cons rfl rest)

theorem spacedDate_dateChars (d : Date) (rest : List Char) :
    spacedDate (Instant.dateChars d ++ rest) = some (d, rest) := by
  obtain ⟨hm, hd⟩ := date_lt d
  have hhyphen : Text.isBlank '-' = false := by decide
  simp only [Instant.dateChars, List.append_assoc, List.cons_append]
  rw [spacedDate, bind_of_eq (year_yearChars _ _), bind_of_eq (blanks_cons hhyphen _),
    bind_of_eq (skip_cons '-' _), bind_of_eq (shortNumber_padded hm _),
    bind_of_eq (blanks_cons hhyphen _), bind_of_eq (skip_cons '-' _),
    bind_of_eq (shortNumber_padded hd _), lift_some (Date.of?_parts d)]

/-! ## Times of day -/

/-- The second in its minute, a leap second being the sixtieth. -/
def secondOf (t : Time) : Nat := t.second % 60 + if nanosPerSecond ≤ t.nanos then 1 else 0

/-- The nanoseconds in their second, whether a leap second or not. -/
def nanosOf (t : Time) : Nat :=
  if nanosPerSecond ≤ t.nanos then t.nanos - nanosPerSecond else t.nanos

theorem timeOf?_eq {hour minute second nanos : Nat} {t : Time}
    (hrange : hour < 24 ∧ minute < 60 ∧ second ≤ 60 ∧ nanos < nanosPerSecond)
    (hsecond : t.second = hour * 3600 + minute * 60 + if second = 60 then 59 else second)
    (hnanos : t.nanos = if second = 60 then nanos + nanosPerSecond else nanos) :
    Time.of? hour minute second nanos = some t := by
  obtain ⟨_, _, ht⟩ := t
  dsimp only at hsecond hnanos
  subst hsecond hnanos
  by_cases hleap : second = 60
  · simp only [if_pos hleap] at ht
    simp only [Time.of?, if_pos hrange, if_pos hleap]
    exact dif_pos ht
  · simp only [if_neg hleap] at ht
    simp only [Time.of?, if_pos hrange, if_neg hleap]
    exact dif_pos ht

/-- The parts of a time are those of the settled time. -/
theorem timeOf?_parts (t : Time) :
    Time.of? (t.second / 3600) (t.second / 60 % 60) (secondOf t) (nanosOf t) = some t.settled := by
  have hn : nanosPerSecond = 1000000000 := rfl
  have hd : secondsPerDay = 86400 := rfl
  obtain ⟨hsecond, hnanos⟩ := t.isTime
  unfold secondOf nanosOf
  by_cases hleap : nanosPerSecond ≤ t.nanos
  · rw [if_pos hleap, if_pos hleap]
    have hrange : t.second / 3600 < 24 ∧ t.second / 60 % 60 < 60 ∧ t.second % 60 + 1 ≤ 60 ∧
        t.nanos - nanosPerSecond < nanosPerSecond := by omega
    by_cases hlast : t.second % 60 = 59
    · have hsixty : t.second % 60 + 1 = 60 := by rw [hlast]
      rw [Time.settled_of_isRegular fun _ => hlast]
      refine timeOf?_eq hrange ?_ ?_
      · rw [if_pos hsixty]
        omega
      · rw [if_pos hsixty, Nat.sub_add_cancel hleap]
    · have hsixty : ¬ t.second % 60 + 1 = 60 := fun h => hlast (Nat.succ.inj h)
      rw [Time.settled_of_not_isRegular fun hregular => hlast (hregular hleap)]
      refine timeOf?_eq hrange ?_ ?_
      · rw [if_neg hsixty]
        dsimp only
        omega
      · rw [if_neg hsixty]
  · rw [if_neg hleap, if_neg hleap, Nat.add_zero]
    have hsixty : ¬ t.second % 60 = 60 := by omega
    rw [Time.settled_of_isRegular fun h => absurd h hleap]
    refine timeOf?_eq (by omega) ?_ ?_
    · rw [if_neg hsixty]
      omega
    · rw [if_neg hsixty]

/-- Up to nine digits are all read. -/
theorem fraction_padded {width n : Nat} (hw : 0 < width) (hw' : width ≤ 9) (h : n < tenTo width)
    (rest : List Char) (hrest : EndsDigits rest) :
    fraction ('.' :: (Instant.padded width n ++ rest)) = some (n * tenTo (9 - width), rest) := by
  have hlen := Instant.length_padded hw h
  have htake : (Instant.padded width n).take 9 = Instant.padded width n :=
    List.take_of_length_le (by omega)
  rw [fraction_point (fun _ => Instant.isDigit_of_mem_padded) (by omega) hrest, htake, hlen,
    Instant.digitsValue_padded]

theorem fraction_fractionChars {n : Nat} (h : n < nanosPerSecond) (rest : List Char) :
    fraction (Instant.fractionChars n ++ 'Z' :: rest) = some (n, 'Z' :: rest) := by
  have hz : EndsDigits ('Z' :: rest) := endsDigits_cons rfl rest
  have hn : nanosPerSecond = 1000000000 := rfl
  unfold Instant.fractionChars
  split
  · rename_i h0
    simp [fraction, h0]
  · split
    · rename_i h6
      have hlt : n / 1000000 < tenTo 3 := by
        show _ < 1000
        omega
      rw [List.cons_append, fraction_padded (by decide) (by decide) hlt _ hz]
      show some (n / 1000000 * 1000000, _) = _
      rw [Nat.div_mul_cancel (Nat.dvd_of_mod_eq_zero h6)]
    · split
      · rename_i h3
        have hlt : n / 1000 < tenTo 6 := by
          show _ < 1000000
          omega
        rw [List.cons_append, fraction_padded (by decide) (by decide) hlt _ hz]
        show some (n / 1000 * 1000, _) = _
        rw [Nat.div_mul_cancel (Nat.dvd_of_mod_eq_zero h3)]
      · have hlt : n < tenTo 9 := h
        rw [List.cons_append, fraction_padded (by decide) (by decide) hlt _ hz]
        show some (n * 1, _) = _
        rw [Nat.mul_one]

theorem ofLocal?_zero (d : Date) (t : Time) : Instant.ofLocal? d t 0 = some ⟨d, t⟩ := by
  have hs := t.isTime.1
  have hd : secondsPerDay = 86400 := rfl
  have hday : ((t.second : Int) - 60 * 0) / secondsPerDay = 0 := by
    rw [hd] at hs ⊢
    omega
  have hsecond : (((t.second : Int) - 60 * 0) % secondsPerDay).toNat = t.second := by
    rw [hd] at hs ⊢
    omega
  simp only [Instant.ofLocal?, hday, hsecond, if_true]
  rw [dif_pos t.isTime]

end Reader

namespace Instant

open Reader

theorem chars_eq (i : Instant) :
    i.chars = dateChars i.date ++ 'T' :: (padded 2 (i.time.second / 3600) ++
      ':' :: (padded 2 (i.time.second / 60 % 60) ++ ':' :: (padded 2 (secondOf i.time) ++
        (fractionChars (nanosOf i.time) ++ ['Z'])))) := by
  simp only [chars, timeChars, secondOf, nanosOf, List.append_assoc, List.cons_append]

theorem time_lt (t : Time) : t.second / 3600 < 100 ∧ t.second / 60 % 60 < 100 ∧
    secondOf t < 100 ∧ nanosOf t < nanosPerSecond := by
  obtain ⟨hs, hn⟩ := t.isTime
  have hd : secondsPerDay = 86400 := rfl
  have hp : nanosPerSecond = 1000000000 := rfl
  unfold secondOf nanosOf
  refine ⟨by omega, by omega, ?_, ?_⟩
  · split <;> omega
  · split <;> omega

/-- The text does not tell a leap second that does not end its minute from the next second. -/
theorem text_settled (i : Instant) : i.settled.text = i.text := by
  by_cases h : i.time.IsRegular
  · rw [settled_of_isRegular h]
  have hp : nanosPerSecond = 1000000000 := rfl
  have hnanos := i.time.isTime.2
  obtain ⟨hleap, hlast⟩ := Classical.not_imp.1 h
  have hhour : (i.time.second + 1) / 3600 = i.time.second / 3600 := by omega
  have hminute : (i.time.second + 1) / 60 % 60 = i.time.second / 60 % 60 := by omega
  have hnext : ¬ nanosPerSecond ≤ i.time.nanos - nanosPerSecond := by omega
  have hsecond : secondOf ⟨i.time.second + 1, i.time.nanos - nanosPerSecond, Time.isTime_succ h⟩ =
      secondOf i.time := by
    simp only [secondOf, if_pos hleap, if_neg hnext]
    omega
  have hparts : nanosOf ⟨i.time.second + 1, i.time.nanos - nanosPerSecond, Time.isTime_succ h⟩ =
      nanosOf i.time := by
    simp only [nanosOf, if_pos hleap, if_neg hnext]
  rw [text, text, chars_eq, chars_eq, settled, Time.settled_of_not_isRegular h]
  simp only [hhour, hminute, hsecond, hparts]

/-- The strict reader reads the text of an instant whose year needs no sign. -/
theorem read?_text {i : Instant} (h : 0 ≤ i.date.year ∧ i.date.year ≤ 9999) :
    read? i.text = some i.settled := by
  obtain ⟨hh, hm, hs, hf⟩ := time_lt i.time
  have hstrict : Reader.strict i.chars = some (i.settled, []) := by
    rw [chars_eq]
    rw [strict, bind_of_eq (strictDate_dateChars h _), bind_of_eq (separator_cons _),
      bind_of_eq (number_padded 2 (by decide) hh _), bind_of_eq (skip_cons ':' _),
      bind_of_eq (number_padded 2 (by decide) hm _), bind_of_eq (skip_cons ':' _),
      bind_of_eq (number_padded 2 (by decide) hs _), bind_of_eq (fraction_fractionChars hf _),
      bind_of_eq (offsetOrZ_cons _ _), bind_of_eq (lift_some (timeOf?_parts _) _),
      lift_some (ofLocal?_zero _ _)]
    rfl
  simp only [read?, text, String.toList_ofList, whole, hstrict]
  rfl

/-- The reader for data reads the text of every instant. -/
theorem readOffset?_text (i : Instant) : readOffset? i.text = some i.settled := by
  obtain ⟨hh, hm, hs, hf⟩ := time_lt i.time
  have hcolon : Text.isBlank ':' = false := by decide
  have hz : Text.isBlank 'Z' = false := by decide
  have hutc : offsetOrUtc ['Z'] = some (0, []) := by
    simp only [offsetOrUtc]
    decide
  have hspaced : Reader.spaced i.chars = some (i.settled, []) := by
    rw [chars_eq]
    rw [spaced, bind_of_eq (spacedDate_dateChars _ _), bind_of_eq (separator_cons _),
      bind_of_eq (shortNumber_padded hh _), bind_of_eq (blanks_cons hcolon _),
      bind_of_eq (skip_cons ':' _), bind_of_eq (shortNumber_padded hm _),
      bind_of_eq (blanks_cons hcolon _), bind_of_eq (skip_cons ':' _),
      bind_of_eq (shortNumber_padded hs _), bind_of_eq (fraction_fractionChars hf _),
      bind_of_eq (blanks_cons hz _), bind_of_eq hutc, bind_of_eq blanks_nil,
      bind_of_eq (lift_some (timeOf?_parts _) _), lift_some (ofLocal?_zero _ _)]
    rfl
  simp only [readOffset?, text, String.toList_ofList, whole, hspaced]

end Instant

end EntityQuery
