import EntityQuery.Filter.Resolve
import EntityQuery.Proofs.RoundTrip.Era
import EntityQuery.Proofs.Time.Denoted

/-!
# Reading written date-times

A written date-time is a date alone or has a time to the minutes or the seconds, with or without a
zone. For each of these shapes the first of the readers of `Instant.read?` that takes the text
reads the instant it stands for (`WrittenTime.exists_read?`), but no reader takes a `Z` behind the
minutes, though one takes a numeric offset there (`WrittenTime.read?_endsAtMinuteUtc`). So the
literals of the class of date-times resolve to what they stand for, but for that shape
(`Literal.resolve_written`).
-/

namespace EntityQuery

/-! ## Readers -/

namespace Reader

theorem skip_of_ne {c : Char} {cs : List Char} (h : cs.head? ≠ some c) : skip c cs = none := by
  refine bind_of_none ?_
  cases cs with
  | nil => rfl
  | cons d cs =>
    have hne : ¬ d = c := fun heq => h (by rw [heq]; rfl)
    exact if_neg (by rw [beq_iff_eq]; exact hne)

theorem fraction_pointChars {fraction rest : List Char} (h : ∀ c ∈ fraction, c.isDigit = true)
    (hrest : EndsDigits rest) (hpoint : rest.head? ≠ some '.') :
    Reader.fraction (pointChars fraction ++ rest) = some (fractionNanos fraction, rest) := by
  by_cases hnil : fraction = []
  · subst hnil
    have hzero : fractionNanos [] = 0 := by decide
    rw [pointChars, if_pos rfl, List.nil_append, hzero]
    unfold Reader.fraction
    split
    · exact absurd rfl hpoint
    · rfl
  · rw [pointChars, if_neg hnil, List.cons_append, fractionNanos_eq]
    exact fraction_point h (List.length_pos_iff.2 hnil) hrest

/-- The separator of the hours and minutes of an offset may be any that takes a colon. -/
theorem signedOffset_zone {separator : Reader Unit} {negative : Bool} {hour minute : Fin (tenTo 2)}
    (hseparator : separator (':' :: Instant.padded 2 minute) =
      some ((), Instant.padded 2 minute))
    (h : (WrittenZone.offset negative hour minute).InRange) :
    signedOffset separator (WrittenZone.offset negative hour minute).chars =
      some ((WrittenZone.offset negative hour minute).minutes, []) := by
  obtain ⟨hhour, hminute⟩ := h
  have hcolon : separator ([':'] ++ Instant.padded 2 minute) =
      some ((), Instant.padded 2 minute) := hseparator
  have hread := fun c (hc : c = '+' ∨ c = '-' ∨ c = '\u2212') =>
    signedOffset_append hc (Instant.numberText_padded (by decide) hour.isLt) hhour hcolon
      (Instant.numberText_padded (by decide) minute.isLt) hminute
  cases negative with
  | false => exact hread '+' (.inl rfl)
  | true => exact hread '-' (.inr (.inl rfl))

theorem offsetOrZ_zone {z : WrittenZone} (h : z.InRange) :
    offsetOrZ (skip ':') z.chars = some (z.minutes, []) := by
  cases z with
  | utc => rfl
  | offset negative hour minute =>
    have hread := signedOffset_zone (skip_cons ':' _) h
    cases negative <;> exact hread

theorem colonsOrBlanks_padded (n : Nat) :
    colonsOrBlanks (':' :: Instant.padded 2 n) = some ((), Instant.padded 2 n) := by
  have hread : colonsOrBlanks ([':'] ++ Instant.padded 2 n) = some ((), Instant.padded 2 n) :=
    colonsOrBlanks_append (List.forall_mem_singleton.2 (.inl rfl))
      fun _ => Instant.isDigit_of_mem_padded
  exact hread

end Reader

/-! ## Dates with a time -/

namespace Reader

section Minutes

variable {d : Date} {hour minute : Nat} {back : List Char}

/-- The strict reader wants seconds. -/
theorem strict_minuteChars (hera : 0 ≤ d.year ∧ d.year ≤ 9999) (hh : hour < 100)
    (hm : minute < 100) (hback : back.head? ≠ some ':') :
    Reader.strict (minuteChars d hour minute back) = none := by
  rw [strict, minuteChars, bind_of_eq (strictDate_dateChars hera _), bind_of_eq (separator_cons _),
    bind_of_eq (number_padded 2 (by decide) hh _), bind_of_eq (skip_cons ':' _),
    bind_of_eq (number_padded 2 (by decide) hm _)]
  exact bind_of_none (skip_of_ne hback)

/-- With seconds it is left to the zone. -/
theorem strict_seconds (hera : 0 ≤ d.year ∧ d.year ≤ 9999) (hh : hour < 100) (hm : minute < 100)
    (s : WrittenSeconds) {rest : List Char} (hrest : EndsDigits rest)
    (hpoint : rest.head? ≠ some '.') :
    Reader.strict (minuteChars d hour minute (s.chars ++ rest)) =
      (do
        let offset ← offsetOrZ (skip ':')
        let time ← StateT.lift (Time.of? hour minute s.second (fractionNanos s.fraction))
        StateT.lift (Instant.ofLocal? d time offset) : Reader Instant) rest := by
  rw [strict, minuteChars, bind_of_eq (strictDate_dateChars hera _), bind_of_eq (separator_cons _),
    bind_of_eq (number_padded 2 (by decide) hh _), bind_of_eq (skip_cons ':' _),
    bind_of_eq (number_padded 2 (by decide) hm _), WrittenSeconds.chars, List.cons_append,
    bind_of_eq (skip_cons ':' _), List.append_assoc,
    bind_of_eq (number_padded 2 (by decide) s.second.isLt _),
    bind_of_eq (fraction_pointChars s.isDigit hrest hpoint)]

/-- The strict reader wants a zone. -/
theorem strict_secondsUtc (hera : 0 ≤ d.year ∧ d.year ≤ 9999) (hh : hour < 100) (hm : minute < 100)
    (s : WrittenSeconds) : Reader.strict (minuteChars d hour minute s.chars) = none := by
  have hread := strict_seconds hera hh hm s endsDigits_nil (by decide)
  rw [List.append_nil] at hread
  rw [hread]
  exact bind_of_none rfl

theorem strict_zone (hera : 0 ≤ d.year ∧ d.year ≤ 9999) (hh : hour < 100) (hm : minute < 100)
    (s : WrittenSeconds) {z : WrittenZone} (hz : z.InRange) {t : Time} {i : Instant}
    (ht : Time.of? hour minute s.second (fractionNanos s.fraction) = some t)
    (hi : Instant.ofLocal? d t z.minutes = some i) :
    Reader.strict (minuteChars d hour minute (s.chars ++ z.chars)) = some (i, []) := by
  have hend : EndsDigits z.chars := by
    cases z with
    | utc => exact endsDigits_cons rfl _
    | offset negative => cases negative <;> exact endsDigits_cons rfl _
  have hpoint : z.chars.head? ≠ some '.' := by
    cases z with
    | utc => decide
    | offset negative => cases negative <;> exact fun h => by cases h
  rw [strict_seconds hera hh hm s hend hpoint, bind_of_eq (offsetOrZ_zone hz),
    bind_of_eq (lift_some ht _), lift_some hi]

theorem minuteOffset_zone (hh : hour < 100) (hm : minute < 100) {negative : Bool}
    {ahead past : Fin (tenTo 2)} (hz : (WrittenZone.offset negative ahead past).InRange)
    {t : Time} {i : Instant} (ht : Time.of? hour minute 0 0 = some t)
    (hi : Instant.ofLocal? d t (WrittenZone.offset negative ahead past).minutes = some i) :
    Reader.minuteOffset (minuteChars d hour minute
      (WrittenZone.offset negative ahead past).chars) = some (i, []) := by
  have hblanks : blanks (WrittenZone.offset negative ahead past).chars =
      some ((), (WrittenZone.offset negative ahead past).chars) := by
    refine blanks_of_not_blank fun c hc => ?_
    cases negative <;> cases hc <;> decide
  rw [minuteOffset, loose_minuteChars d hh hm, bind_of_eq hblanks,
    bind_of_eq (signedOffset_zone (colonsOrBlanks_padded _) hz), bind_of_eq (lift_some ht _),
    lift_some hi]

theorem secondUtc_minuteChars (hh : hour < 100) (hm : minute < 100)
    (hback : back.head? ≠ some ':') :
    Reader.secondUtc (minuteChars d hour minute back) = none := by
  rw [secondUtc, loose_minuteChars d hh hm]
  exact bind_of_none (skip_of_ne hback)

theorem secondUtc_seconds (hh : hour < 100) (hm : minute < 100) (s : WrittenSeconds) {t : Time}
    (ht : Time.of? hour minute s.second (fractionNanos s.fraction) = some t) :
    Reader.secondUtc (minuteChars d hour minute s.chars) = some (⟨d, t⟩, []) := by
  have hfraction := fraction_pointChars s.isDigit endsDigits_nil (by decide)
  rw [List.append_nil] at hfraction
  rw [secondUtc, loose_minuteChars d hh hm, WrittenSeconds.chars, bind_of_eq (skip_cons ':' _),
    bind_of_eq (shortNumber_padded s.second.isLt _), bind_of_eq hfraction,
    bind_of_eq (lift_some ht _)]
  rfl

theorem minuteUtc_minutes (hh : hour < 100) (hm : minute < 100) {t : Time}
    (ht : Time.of? hour minute 0 0 = some t) :
    Reader.minuteUtc (minuteChars d hour minute []) = some (⟨d, t⟩, []) := by
  rw [minuteUtc, loose_minuteChars d hh hm, bind_of_eq (lift_some ht _)]
  rfl

end Minutes

/-! ## Dates alone -/

section Alone

variable (d : Date)

theorem strict_dateChars {d : Date} (hera : 0 ≤ d.year ∧ d.year ≤ 9999) :
    Reader.strict (Instant.dateChars d) = none := by
  have hdate := strictDate_dateChars hera []
  rw [List.append_nil] at hdate
  rw [strict, bind_of_eq hdate]
  exact bind_of_none (bind_of_none rfl)

/-- The loose readers of a time want a `T` behind the date. -/
theorem loose_dateChars (f : Date → Reader Instant) :
    (do
      let date ← looseDate
      skip 'T'
      f date : Reader Instant) (Instant.dateChars d) = none := by
  have hdate := looseDate_dateChars d []
  rw [List.append_nil] at hdate
  rw [bind_of_eq hdate]
  exact bind_of_none rfl

theorem dateAlone_dateChars :
    Reader.dateAlone (Instant.dateChars d) = some (⟨d, .midnight⟩, []) := by
  have hdate := looseDate_dateChars d []
  rw [List.append_nil] at hdate
  rw [dateAlone, bind_of_eq hdate]
  rfl

end Alone

theorem whole_of_eq {α : Type} {r : Reader α} {cs : List Char} {a : α} (h : r cs = some (a, [])) :
    r.whole cs = some a := by
  rw [whole, h]

end Reader

/-! ## Shapes -/

namespace Instant

open Reader

theorem read?_ofList (cs : List Char) :
    read? (String.ofList cs) = (Reader.strict.whole cs <|> Reader.minuteOffset.whole cs <|>
      Reader.secondUtc.whole cs <|> Reader.minuteUtc.whole cs <|> Reader.dateAlone.whole cs) := by
  rw [read?, String.toList_ofList]

section Shapes

variable {d : Date} {hour minute : Nat} (hera : 0 ≤ d.year ∧ d.year ≤ 9999) (hh : hour < 100)
  (hm : minute < 100)
include hera

theorem read?_date : read? (String.ofList (dateChars d)) = some ⟨d, .midnight⟩ := by
  have hoffset : Reader.minuteOffset (dateChars d) = none := loose_dateChars d _
  have hsecond : Reader.secondUtc (dateChars d) = none := loose_dateChars d _
  have hminute : Reader.minuteUtc (dateChars d) = none := loose_dateChars d _
  rw [read?_ofList, whole_of_none (strict_dateChars hera), whole_of_none hoffset,
    whole_of_none hsecond, whole_of_none hminute, whole_of_eq (dateAlone_dateChars d)]
  rfl

include hh hm

theorem read?_secondsZone (s : WrittenSeconds) {z : WrittenZone} (hz : z.InRange) {t : Time}
    {i : Instant} (ht : Time.of? hour minute s.second (fractionNanos s.fraction) = some t)
    (hi : ofLocal? d t z.minutes = some i) :
    read? (String.ofList (minuteChars d hour minute (s.chars ++ z.chars))) = some i := by
  rw [read?_ofList, whole_of_eq (strict_zone hera hh hm s hz ht hi)]
  rfl

theorem read?_seconds (s : WrittenSeconds) {t : Time}
    (ht : Time.of? hour minute s.second (fractionNanos s.fraction) = some t) :
    read? (String.ofList (minuteChars d hour minute s.chars)) = some ⟨d, t⟩ := by
  have hoffset : Reader.minuteOffset (minuteChars d hour minute s.chars) = none :=
    minuteOffset_minuteChars d hh hm fun c hc => .inl (Option.some.inj hc).symm
  rw [read?_ofList, whole_of_none (strict_secondsUtc hera hh hm s), whole_of_none hoffset,
    whole_of_eq (secondUtc_seconds hh hm s ht)]
  rfl

theorem read?_minutesOffset {negative : Bool} {ahead past : Fin (tenTo 2)}
    (hz : (WrittenZone.offset negative ahead past).InRange) {t : Time} {i : Instant}
    (ht : Time.of? hour minute 0 0 = some t)
    (hi : ofLocal? d t (WrittenZone.offset negative ahead past).minutes = some i) :
    read? (String.ofList (minuteChars d hour minute
      (WrittenZone.offset negative ahead past).chars)) = some i := by
  have hcolon : (WrittenZone.offset negative ahead past).chars.head? ≠ some ':' := by
    cases negative <;> exact fun h => by cases h
  rw [read?_ofList, whole_of_none (strict_minuteChars hera hh hm hcolon),
    whole_of_eq (minuteOffset_zone hh hm hz ht hi)]
  rfl

theorem read?_minutes {t : Time} (ht : Time.of? hour minute 0 0 = some t) :
    read? (String.ofList (minuteChars d hour minute [])) = some ⟨d, t⟩ := by
  have hoffset : Reader.minuteOffset (minuteChars d hour minute []) = none :=
    minuteOffset_minuteChars d hh hm fun c hc => by cases hc
  rw [read?_ofList, whole_of_none (strict_minuteChars hera hh hm (by decide)),
    whole_of_none hoffset, whole_of_none (secondUtc_minuteChars hh hm (by decide)),
    whole_of_eq (minuteUtc_minutes hh hm ht)]
  rfl

/-- No reader takes a `Z` behind the minutes: the strict one wants seconds, the one for minutes with
an offset a sign, and the others leave it. -/
theorem read?_minutesUtc : read? (String.ofList (minuteChars d hour minute ['Z'])) = none := by
  have hoffset : Reader.minuteOffset (minuteChars d hour minute ['Z']) = none :=
    minuteOffset_minuteChars d hh hm fun c hc => .inr (Option.some.inj hc).symm
  rw [read?_ofList, whole_of_none (strict_minuteChars hera hh hm (by decide)),
    whole_of_none hoffset, whole_of_none (secondUtc_minuteChars hh hm (by decide)),
    whole_minuteUtc_minuteChars d hh hm, minuteChars, whole_dateAlone_dateChars]
  rfl

end Shapes

end Instant

/-! ## The instant that is read -/

namespace WrittenClock

variable {d : Date} {c : WrittenClock}

/-- Every shape but that of minutes and a `Z` is read. -/
theorem exists_read? (hera : 0 ≤ d.year ∧ d.year ≤ 9999) (h : c.InRange)
    (hshape : ¬ (c.seconds = none ∧ c.zone = some .utc)) :
    ∃ i, Instant.read? (String.ofList (Instant.dateChars d ++ c.chars)) = some i ∧
      i.time.nanos < nanosPerSecond ∧
      i.count = (d.number * secondsPerDay + (c.second - 60 * c.offset)) * nanosPerSecond +
        c.nanos := by
  obtain ⟨t, i, ht, hi, hcount⟩ := exists_ofLocal? hera h
  refine ⟨i, ?_, hcount⟩
  obtain ⟨hour, minute, seconds, zone⟩ := c
  have hchars : Instant.dateChars d ++ (WrittenClock.mk hour minute seconds zone).chars =
      minuteChars d hour minute (seconds.elim [] WrittenSeconds.chars ++
        zone.elim [] WrittenZone.chars) := rfl
  rw [hchars]
  cases zone with
  | some z =>
    cases seconds with
    | some s => exact Instant.read?_secondsZone hera hour.isLt minute.isLt s (h.zone z rfl) ht hi
    | none =>
      cases z with
      | utc => exact absurd ⟨rfl, rfl⟩ hshape
      | offset => exact Instant.read?_minutesOffset hera hour.isLt minute.isLt (h.zone _ rfl) ht hi
  | none =>
    obtain rfl : i = ⟨d, t⟩ := Option.some.inj (hi.symm.trans (Reader.ofLocal?_zero d t))
    rw [Option.elim_none, List.append_nil]
    cases seconds with
    | some s => exact Instant.read?_seconds hera hour.isLt minute.isLt s ht
    | none => exact Instant.read?_minutes hera hour.isLt minute.isLt ht

end WrittenClock

namespace WrittenTime

variable {w : WrittenTime}

/-- A `Z` behind the minutes. -/
def EndsAtMinuteUtc (w : WrittenTime) : Prop :=
  ∃ c, w.clock = some c ∧ c.seconds = none ∧ c.zone = some .utc

/-- A written time is read, to the instant it stands for, unless it is of the one shape without a
reader. -/
theorem exists_read? (h : w.InRange) (hshape : ¬ w.EndsAtMinuteUtc) :
    ∃ i, Instant.read? (String.ofList w.chars) = some i ∧ w.Denotes i := by
  have hera := date_year h
  rw [chars_eq h]
  obtain ⟨year, month, day, clock⟩ := w
  cases clock with
  | none =>
    rw [Option.elim_none, List.append_nil]
    exact ⟨_, Instant.read?_date hera, (by decide : 0 < nanosPerSecond), rfl⟩
  | some c =>
    obtain ⟨i, hread, hdenotes⟩ := WrittenClock.exists_read? hera (h.clock c rfl)
      fun hc => hshape ⟨c, rfl, hc⟩
    exact ⟨i, hread, hdenotes⟩

theorem read?_endsAtMinuteUtc (h : w.InRange) (hshape : w.EndsAtMinuteUtc) :
    Instant.read? (String.ofList w.chars) = none := by
  obtain ⟨⟨hour, minute, seconds, zone⟩, hclock, hseconds, hzone⟩ := hshape
  obtain rfl : seconds = none := hseconds
  obtain rfl : zone = some .utc := hzone
  rw [chars_eq h, hclock]
  exact Instant.read?_minutesUtc (date_year h) hour.isLt minute.isLt

end WrittenTime

namespace Literal

theorem resolve_dateTime (text : String) :
    (Literal.mk text .dateTime).resolve .dateTime = (Instant.read? text).map .dateTime := rfl

theorem resolve_endsAtMinuteUtc {text : String} {w : WrittenTime} (htext : text.toList = w.chars)
    (h : w.InRange) (hshape : w.EndsAtMinuteUtc) :
    (Literal.mk text .dateTime).resolve .dateTime = none := by
  rw [resolve_dateTime, ← String.ofList_toList (s := text), htext,
    WrittenTime.read?_endsAtMinuteUtc h hshape]
  rfl

/-- A text of the class of date-times is a written time. With its parts in range it resolves to the
one instant it stands for, unless it ends in minutes and a `Z`: then it resolves to nothing. -/
theorem resolve_written {text : String}
    (hmatch : Text.Pattern.Matches Lexeme.dateTimePattern text.toList) :
    (∃ w : WrittenTime, text.toList = w.chars) ∧
      ∀ w : WrittenTime, text.toList = w.chars → w.InRange →
        ((∃ i, (Literal.mk text .dateTime).resolve .dateTime = some (.dateTime i) ∧
            ∀ j, w.Denotes j ↔ j = i) ↔ ¬ w.EndsAtMinuteUtc) ∧
          (w.EndsAtMinuteUtc → (Literal.mk text .dateTime).resolve .dateTime = none) := by
  refine ⟨(WrittenTime.matches_iff _).1 hmatch, fun w htext h =>
    ⟨⟨?_, fun hshape => ?_⟩, resolve_endsAtMinuteUtc htext h⟩⟩
  · rintro ⟨i, hsome, -⟩ hshape
    rw [resolve_endsAtMinuteUtc htext h hshape] at hsome
    cases hsome
  · obtain ⟨i, hread, hdenotes⟩ := WrittenTime.exists_read? h hshape
    rw [← htext, String.ofList_toList] at hread
    refine ⟨i, by rw [resolve_dateTime, hread]; rfl, fun j => ⟨fun hj => ?_, ?_⟩⟩
    · exact hj.unique hdenotes
    · rintro rfl
      exact hdenotes

/-- Half a second past ten, where clocks are two hours ahead. -/
def pastTen : WrittenTime where
  year := ⟨2024, by decide⟩
  month := ⟨1, by decide⟩
  day := ⟨31, by decide⟩
  clock := some {
    hour := ⟨10, by decide⟩
    minute := ⟨0, by decide⟩
    seconds := some ⟨⟨0, by decide⟩, ['5'], List.forall_mem_singleton.2 rfl⟩
    zone := some (.offset false ⟨2, by decide⟩ ⟨0, by decide⟩) }

theorem inRange_pastTen : pastTen.InRange := by
  refine ⟨by decide, ?_⟩
  rintro c ⟨⟩
  refine ⟨by decide, by decide, ?_, ?_⟩
  · rintro s ⟨⟩
    decide
  · rintro z ⟨⟩
    exact ⟨by decide, by decide⟩

def pastTenUtc : Instant := ⟨⟨2024, 1, 31, by decide⟩, ⟨28800, 500000000, by decide⟩⟩

theorem resolve_written_pastTen :
    (Literal.mk "2024-01-31T10:00:00.5+02:00" .dateTime).resolve .dateTime =
      some (.dateTime pastTenUtc) := by
  have hchars : "2024-01-31T10:00:00.5+02:00".toList = pastTen.chars := by decide
  have hmatch := (WrittenTime.matches_iff _).2 ⟨pastTen, hchars⟩
  have hshape : ¬ pastTen.EndsAtMinuteUtc := by
    rintro ⟨c, ⟨⟩, hseconds, -⟩
    cases hseconds
  have hdenoted : pastTen.Denotes pastTenUtc := ⟨by decide, by decide⟩
  obtain ⟨i, hread, hdenotes⟩ :=
    ((resolve_written hmatch).2 pastTen hchars inRange_pastTen).1.2 hshape
  rw [hread, (hdenotes pastTenUtc).1 hdenoted]

/-- A quarter past ten on a leap day, without seconds. -/
def quarterPastTen : WrittenTime where
  year := ⟨2024, by decide⟩
  month := ⟨2, by decide⟩
  day := ⟨29, by decide⟩
  clock := some ⟨⟨10, by decide⟩, ⟨15, by decide⟩, none, some .utc⟩

theorem inRange_quarterPastTen : quarterPastTen.InRange := by
  refine ⟨by decide, ?_⟩
  rintro c ⟨⟩
  refine ⟨by decide, by decide, ?_, ?_⟩
  · rintro s ⟨⟩
  · rintro z ⟨⟩
    trivial

def quarterPastTenUtc : Instant := ⟨⟨2024, 2, 29, by decide⟩, ⟨36900, 0, by decide⟩⟩

/-- A text that stands for an instant and resolves to nothing, though an offset in the place of the
`Z` resolves, and so does the `Z` behind seconds. -/
theorem resolve_quarterPastTen :
    Text.Pattern.Matches Lexeme.dateTimePattern "2024-02-29T10:15Z".toList ∧
      "2024-02-29T10:15Z".toList = quarterPastTen.chars ∧
      quarterPastTen.InRange ∧ quarterPastTen.Denotes quarterPastTenUtc ∧
      (Literal.mk "2024-02-29T10:15Z" .dateTime).resolve .dateTime = none ∧
      (Literal.mk "2024-02-29T10:15+00:00" .dateTime).resolve .dateTime =
        some (.dateTime quarterPastTenUtc) ∧
      (Literal.mk "2024-02-29T10:15:00Z" .dateTime).resolve .dateTime =
        some (.dateTime quarterPastTenUtc) := by
  have hchars : "2024-02-29T10:15Z".toList = quarterPastTen.chars := by decide
  exact ⟨(WrittenTime.matches_iff _).2 ⟨quarterPastTen, hchars⟩, hchars, inRange_quarterPastTen,
    ⟨by decide, by decide⟩,
    resolve_endsAtMinuteUtc hchars inRange_quarterPastTen ⟨_, rfl, rfl, rfl⟩, by decide, by decide⟩

end Literal

end EntityQuery
