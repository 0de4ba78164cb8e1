import EntityQuery.Proofs.RoundTrip.Value

/-!
# Instants with a signed year

The text of an instant has a sign in front of a year that is not one from 0 to 9999. None of the
readers of filters takes such a text: the strict one has no signs, and each of the others stops
before the seconds, the zone or the time are read. So the text of an instant is read exactly if its
year has no sign (`Instant.read?_text_eq`), and a document that holds another instant reads as one
that holds nothing (`Value.ofDocument_dateTime`).
-/

namespace EntityQuery

/-- A date and a time to the minute, and what follows. -/
def minuteChars (d : Date) (hour minute : Nat) (back : List Char) : List Char :=
  Instant.dateChars d ++
    'T' :: (Instant.padded 2 hour ++ ':' :: (Instant.padded 2 minute ++ back))

namespace Reader

theorem bind_of_none {α β : Type} {r : Reader α} {f : α → Reader β} {cs : List Char}
    (h : r cs = none) : (r >>= f) cs = none := by
  rw [bind_apply, h]
  rfl

theorem whole_of_none {α : Type} {r : Reader α} {cs : List Char} (h : r cs = none) :
    r.whole cs = none := by
  rw [whole, h]

/-- A reader that leaves something does not take the whole text. -/
theorem whole_of_rest {α : Type} {r : Reader α} {cs rest : List Char} {a : α} {c : Char}
    (h : r cs = some (a, c :: rest)) : r.whole cs = none := by
  rw [whole, h]

/-- Where no digit comes next there is no number. -/
theorem number_of_endsDigits {cs : List Char} (h : EndsDigits cs) {least : Nat} (hleast : 0 < least)
    (most : Nat) : number least most cs = none := by
  have hnone : (cs.take most).takeWhile Char.isDigit = [] := by
    cases cs with
    | nil => rw [List.take_nil, List.takeWhile_nil]
    | cons c rest =>
      have hc : c.isDigit = false := h c rfl
      cases most with
      | zero => rfl
      | succ k => rw [List.take_succ_cons, List.takeWhile_cons_of_neg (by rw [hc]; decide)]
  refine bind_of_none ?_
  simp only [digits, hnone, List.length_nil]
  exact if_neg (Nat.not_le.2 hleast)

theorem looseDate_dateChars (d : Date) (rest : List Char) :
    looseDate (Instant.dateChars d ++ rest) = some (d, rest) := by
  obtain ⟨hm, hd⟩ := date_lt d
  simp only [Instant.dateChars, List.append_assoc, List.cons_append]
  rw [looseDate, bind_of_eq (year_yearChars _ _), bind_of_eq (skip_cons '-' _),
    bind_of_eq (shortNumber_padded hm _), bind_of_eq (skip_cons '-' _),
    bind_of_eq (shortNumber_padded hd _), lift_some (Date.of?_parts d)]

/-! ## Dates with a time to the minute -/

section Minutes

variable (d : Date) {hour minute : Nat} (hh : hour < 100) (hm : minute < 100)
include hh hm

/-- What the loose readers have in common takes the text up to the minutes. -/
theorem loose_minuteChars (back : List Char) (f : Date → Nat → Nat → Reader Instant) :
    (do
      let date ← looseDate
      skip 'T'
      let hour ← shortNumber
      skip ':'
      let minute ← shortNumber
      f date hour minute : Reader Instant) (minuteChars d hour minute back) =
      f d hour minute back := by
  rw [minuteChars, bind_of_eq (looseDate_dateChars _ _), bind_of_eq (skip_cons 'T' _),
    bind_of_eq (shortNumber_padded hh _), bind_of_eq (skip_cons ':' _),
    bind_of_eq (shortNumber_padded hm _)]

/-- An offset begins with a sign, neither with a colon nor with a `Z`. -/
theorem minuteOffset_minuteChars {back : List Char} (hback : ∀ c ∈ back.head?, c = ':' ∨ c = 'Z') :
    Reader.minuteOffset (minuteChars d hour minute back) = none := by
  have hblanks : blanks back = some ((), back) := by
    refine blanks_of_not_blank fun c hc => ?_
    rcases hback c hc with rfl | rfl <;> decide
  have hsign : sign back = none := by
    cases back with
    | nil => rfl
    | cons c back => rcases hback c rfl with rfl | rfl <;> rfl
  rw [minuteOffset, loose_minuteChars d hh hm, bind_of_eq hblanks]
  exact bind_of_none (bind_of_none hsign)

/-- What follows the minutes is left. -/
theorem whole_minuteUtc_minuteChars (c : Char) (back : List Char) :
    Reader.minuteUtc.whole (minuteChars d hour minute (c :: back)) = none := by
  have hread := loose_minuteChars d hh hm (c :: back) fun date hour minute => do
    let time ← StateT.lift (Time.of? hour minute 0 0)
    pure ⟨date, time⟩
  cases htime : Time.of? hour minute 0 0 with
  | none =>
    rw [htime] at hread
    exact whole_of_none hread
  | some t =>
    rw [bind_of_eq (lift_some htime _)] at hread
    exact whole_of_rest hread

end Minutes

/-- What follows the date is left. -/
theorem whole_dateAlone_dateChars (d : Date) (c : Char) (rest : List Char) :
    Reader.dateAlone.whole (Instant.dateChars d ++ c :: rest) = none := by
  have hread : Reader.dateAlone (Instant.dateChars d ++ c :: rest) =
      some (⟨d, .midnight⟩, c :: rest) := by
    rw [dateAlone, bind_of_eq (looseDate_dateChars _ _)]
    rfl
  exact whole_of_rest hread

end Reader

namespace Instant

open Reader

/-! ## Each reader fails -/

theorem endsDigits_chars {i : Instant} (h : ¬ i.InEra) : EndsDigits i.chars := by
  have hyear : yearChars i.date.year =
      (if i.date.year < 0 then '-' else '+') :: padded 4 i.date.year.natAbs := if_neg h
  rw [chars_eq, dateChars, hyear]
  refine endsDigits_cons ?_ _
  split <;> rfl

theorem strict_chars {i : Instant} (h : ¬ i.InEra) : Reader.strict i.chars = none :=
  bind_of_none (bind_of_none (number_of_endsDigits (endsDigits_chars h) (by decide) 4))

/-- The text of a time of day from the colon behind the minutes on. -/
def secondsChars (t : Time) : List Char :=
  ':' :: (padded 2 (secondOf t) ++ (fractionChars (nanosOf t) ++ ['Z']))

theorem chars_eq_minuteChars (i : Instant) :
    i.chars = minuteChars i.date (i.time.second / 3600) (i.time.second / 60 % 60)
      (secondsChars i.time) := chars_eq i

/-- The seconds follow on the minutes. -/
theorem minuteOffset_chars (i : Instant) : Reader.minuteOffset i.chars = none := by
  obtain ⟨hh, hm, -, -⟩ := time_lt i.time
  rw [chars_eq_minuteChars]
  exact minuteOffset_minuteChars i.date hh hm fun c hc => .inl (Option.some.inj hc).symm

/-- The zone is left. -/
theorem whole_secondUtc_chars (i : Instant) : Reader.secondUtc.whole i.chars = none := by
  obtain ⟨hh, hm, hs, hf⟩ := time_lt i.time
  have hread : Reader.secondUtc i.chars = some (i.settled, ['Z']) := by
    rw [chars_eq_minuteChars, secondUtc, loose_minuteChars i.date hh hm, secondsChars,
      bind_of_eq (skip_cons ':' _), bind_of_eq (shortNumber_padded hs _),
      bind_of_eq (fraction_fractionChars hf _), bind_of_eq (lift_some (timeOf?_parts _) _)]
    rfl
  exact whole_of_rest hread

theorem whole_minuteUtc_chars (i : Instant) : Reader.minuteUtc.whole i.chars = none := by
  obtain ⟨hh, hm, -, -⟩ := time_lt i.time
  rw [chars_eq_minuteChars]
  exact whole_minuteUtc_minuteChars i.date hh hm _ _

theorem whole_dateAlone_chars (i : Instant) : Reader.dateAlone.whole i.chars = none := by
  have hchars : i.chars = dateChars i.date ++ 'T' :: (timeChars i.time ++ ['Z']) := by
    rw [chars, List.append_assoc, List.cons_append]
  rw [hchars]
  exact whole_dateAlone_dateChars _ _ _

/-! ## What is read back -/

/-- The text of an instant is read exactly if the year has no sign. -/
theorem read?_text_eq (i : Instant) : read? i.text = if i.InEra then some i.settled else none := by
  split
  · rename_i h
    exact read?_text h
  · rename_i h
    simp only [read?, text, String.toList_ofList, whole_of_none (strict_chars h),
      whole_of_none (minuteOffset_chars i), whole_secondUtc_chars, whole_minuteUtc_chars,
      whole_dateAlone_chars]
    rfl

end Instant

namespace Value

/-- A stored instant whose year has a sign is not there when it is read. -/
theorem ofDocument_dateTime (i : Instant) :
    ofDocument (dateTime i).toDocument = if i.InEra then dateTime i.settled else null := by
  simp only [toDocument, ofDocument, Instant.read?_text_eq]
  split <;> rfl

end Value

end EntityQuery
