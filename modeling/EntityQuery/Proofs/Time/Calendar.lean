import EntityQuery.Time.Instant

/-!
# Counting days

Days are counted from the first one of the year 0, with as many days for every year and month
before as it has (`dayNumber`). No two days have one number (`Date.eq_of_number`), and the steps of
`Date.next?` and `Date.previous?` are steps in this count. So the instant at which clocks with an
offset show a time is their time less the offset (`Instant.count_ofLocal?`).
-/

namespace EntityQuery

/-! ## The number of a day -/

/-- The leap years from the year 0 up to a year, and those from it up to the year 0 taken away. -/
def leapYearsBefore (year : Int) : Int := (year + 3) / 4 - (year + 99) / 100 + (year + 399) / 400

def daysBeforeYear (year : Int) : Int := 365 * year + leapYearsBefore year

def daysBeforeMonth (year : Int) : Nat → Nat
  | 0 | 1 => 0
  | month + 2 => daysBeforeMonth year (month + 1) + daysInMonth year (month + 1)

/-- Days are counted from the first one of the year 0, which is day 1. -/
def dayNumber (year : Int) (month day : Nat) : Int :=
  daysBeforeYear year + daysBeforeMonth year month + day

def Date.number (d : Date) : Int := dayNumber d.year d.month d.day

example : dayNumber 0 1 1 = 1 ∧ dayNumber 1970 1 1 = 719529 := by decide

theorem isLeapYear_iff (year : Int) :
    isLeapYear year = true ↔ year % 4 = 0 ∧ (year % 100 ≠ 0 ∨ year % 400 = 0) := by
  simp [isLeapYear]

theorem daysBeforeMonth_succ {month : Nat} (year : Int) (h : 1 ≤ month) :
    daysBeforeMonth year (month + 1) = daysBeforeMonth year month + daysInMonth year month := by
  obtain ⟨k, rfl⟩ := Nat.exists_eq_add_of_le' h
  rfl

theorem daysInMonth_pos (year : Int) (month : Nat) : 1 ≤ daysInMonth year month := by
  unfold daysInMonth
  split
  · split <;> decide
  all_goals decide

/-- A year is as long as its months. -/
theorem daysBeforeYear_succ (year : Int) :
    daysBeforeYear (year + 1) =
      daysBeforeYear year + daysBeforeMonth year 12 + daysInMonth year 12 := by
  have hmonths : daysBeforeMonth year 12 + daysInMonth year 12 =
      365 + if isLeapYear year then 1 else 0 := by
    simp only [daysBeforeMonth, daysInMonth]
    split <;> rfl
  have hleap := isLeapYear_iff year
  unfold daysBeforeYear leapYearsBefore
  by_cases h : isLeapYear year = true
  · rw [if_pos h] at hmonths
    have hdivides := hleap.1 h
    omega
  · rw [if_neg h] at hmonths
    have hdivides := mt hleap.2 h
    omega

/-- The first day of a month follows on the last one of the month before. -/
theorem dayNumber_month {month : Nat} (year : Int) (h : 1 ≤ month) :
    dayNumber year (month + 1) 1 = dayNumber year month (daysInMonth year month) + 1 := by
  rw [dayNumber, dayNumber, daysBeforeMonth_succ year h]
  omega

theorem dayNumber_year (year : Int) : dayNumber (year + 1) 1 1 = dayNumber year 12 31 + 1 := by
  have hlast : daysInMonth year 12 = 31 := rfl
  have hfirst : daysBeforeMonth (year + 1) 1 = 0 := rfl
  rw [dayNumber, dayNumber, daysBeforeYear_succ, hlast, hfirst]
  omega

theorem orElse_eq_some {β : Type} {a b : Option β} {x : β} :
    (a <|> b) = some x ↔ a = some x ∨ a = none ∧ b = some x := by
  rw [Option.orElse_eq_orElse, Option.orElse_eq_or, Option.or_eq_some_iff]

theorem ne_none_of_orElse {β : Type} {a b : Option β} (h : b ≠ none) : (a <|> b) ≠ none := by
  cases a with
  | none => exact h
  | some x => exact Option.some_ne_none x

namespace Date

/-! ## Steps -/

theorem of?_of_isDate {year : Int} {month day : Nat} (h : IsDate year month day) :
    of? year month day = some ⟨year, month, day, h⟩ := dif_pos h

theorem number_of?_eq_some {year : Int} {month day : Nat} {e : Date}
    (h : of? year month day = some e) : e.number = dayNumber year month day := by
  obtain ⟨hyear, hmonth, hday⟩ := of?_eq_some h
  rw [number, hyear, hmonth, hday]

theorem not_isDate_of_none {year : Int} {month day : Nat} (h : of? year month day = none) :
    ¬ IsDate year month day := by
  intro hdate
  rw [of?_of_isDate hdate] at h
  cases h

/-- The day after has the next number. -/
theorem number_next? {d e : Date} (h : d.next? = some e) : e.number = d.number + 1 := by
  obtain ⟨hyear, ⟨hm, hm'⟩, hd, hd'⟩ := d.isDate
  have hnumber : d.number = dayNumber d.year d.month d.day := rfl
  unfold next? at h
  rcases orElse_eq_some.1 h with hday | ⟨hnoday, hlater⟩
  · rw [number_of?_eq_some hday, hnumber]
    simp only [dayNumber]
    omega
  have hlast : d.day = daysInMonth d.year d.month := by
    refine Nat.le_antisymm hd' (Nat.not_lt.1 fun hlt => not_isDate_of_none hnoday ?_)
    exact ⟨hyear, ⟨hm, hm'⟩, Nat.succ_pos _, hlt⟩
  rw [hlast] at hnumber
  rcases orElse_eq_some.1 hlater with hmonth | ⟨hnomonth, hyear'⟩
  · rw [number_of?_eq_some hmonth, hnumber, dayNumber_month _ hm]
  · have hdecember : d.month = 12 := by
      refine Nat.le_antisymm hm' (Nat.not_lt.1 fun hlt => not_isDate_of_none hnomonth ?_)
      exact ⟨hyear, ⟨Nat.succ_pos _, hlt⟩, Nat.le_refl 1, daysInMonth_pos _ _⟩
    rw [number_of?_eq_some hyear', hnumber, hdecember]
    exact dayNumber_year _

theorem number_previous? {d e : Date} (h : d.previous? = some e) : e.number = d.number - 1 := by
  obtain ⟨hyear, ⟨hm, hm'⟩, hd, hd'⟩ := d.isDate
  have hnumber : d.number = dayNumber d.year d.month d.day := rfl
  unfold previous? at h
  rcases orElse_eq_some.1 h with hday | ⟨hnoday, hearlier⟩
  · rw [number_of?_eq_some hday, hnumber]
    simp only [dayNumber]
    omega
  have hfirst : d.day = 1 := by
    refine Nat.le_antisymm (Nat.not_lt.1 fun hlt => not_isDate_of_none hnoday ?_) hd
    exact ⟨hyear, ⟨hm, hm'⟩, by omega, by omega⟩
  rw [hfirst] at hnumber
  rcases orElse_eq_some.1 hearlier with hmonth | ⟨hnomonth, hyear'⟩
  · have hbefore : 1 ≤ d.month - 1 := (of?_eq_some hmonth).2.1 ▸ e.isDate.2.1.1
    have hstep := dayNumber_month d.year hbefore
    rw [Nat.sub_add_cancel hm] at hstep
    rw [number_of?_eq_some hmonth, hnumber]
    omega
  · have hjanuary : d.month = 1 := by
      refine Nat.le_antisymm (Nat.not_lt.1 fun hlt => not_isDate_of_none hnomonth ?_) hm
      exact ⟨hyear, ⟨by omega, by omega⟩, daysInMonth_pos _ _, Nat.le_refl _⟩
    have hstep := dayNumber_year (d.year - 1)
    rw [Int.sub_add_cancel] at hstep
    rw [number_of?_eq_some hyear', hnumber, hjanuary]
    omega

/-- Before the last year every day has one after it. -/
theorem next?_ne_none {d : Date} (h : d.year < 262142) : d.next? ≠ none := by
  have hfirst : IsDate (d.year + 1) 1 1 := by
    obtain ⟨⟨hyear, -⟩, -⟩ := d.isDate
    exact ⟨⟨by omega, by omega⟩, by decide, by decide, daysInMonth_pos _ _⟩
  refine ne_none_of_orElse (ne_none_of_orElse ?_)
  rw [of?_of_isDate hfirst]
  exact Option.some_ne_none _

theorem previous?_ne_none {d : Date} (h : -262143 < d.year) : d.previous? ≠ none := by
  have hlast : IsDate (d.year - 1) 12 31 := by
    obtain ⟨⟨-, hyear⟩, -⟩ := d.isDate
    exact ⟨⟨by omega, by omega⟩, by decide, by decide, Nat.le_refl 31⟩
  refine ne_none_of_orElse (ne_none_of_orElse ?_)
  rw [of?_of_isDate hlast]
  exact Option.some_ne_none _

end Date

/-! ## Each day has a number of its own -/

theorem daysBeforeYear_le {year later : Int} (h : year < later) :
    daysBeforeYear (year + 1) ≤ daysBeforeYear later := by
  unfold daysBeforeYear leapYearsBefore
  omega

theorem daysBeforeMonth_le (year : Int) {month later : Nat} (h : 1 ≤ month) (hle : month ≤ later) :
    daysBeforeMonth year month ≤ daysBeforeMonth year later := by
  induction hle with
  | refl => exact Nat.le_refl _
  | step hle ih =>
    rw [Nat.succ_eq_add_one, daysBeforeMonth_succ year (Nat.le_trans h hle)]
    exact Nat.le_trans ih (Nat.le_add_right _ _)

namespace IsDate

variable {year : Int} {month day : Nat}

/-- The day is in its month. -/
theorem day_bounds (h : IsDate year month day) :
    daysBeforeMonth year month < daysBeforeMonth year month + day ∧
      daysBeforeMonth year month + day ≤ daysBeforeMonth year (month + 1) := by
  obtain ⟨-, ⟨hm, -⟩, hd, hd'⟩ := h
  rw [daysBeforeMonth_succ year hm]
  omega

/-- The day is in its year. -/
theorem dayNumber_bounds (h : IsDate year month day) :
    daysBeforeYear year < dayNumber year month day ∧
      dayNumber year month day ≤ daysBeforeYear (year + 1) := by
  have hmonth := h.day_bounds
  have hend : daysBeforeMonth year (month + 1) ≤ daysBeforeMonth year (12 + 1) :=
    daysBeforeMonth_le year (Nat.succ_pos month) (Nat.succ_le_succ h.2.1.2)
  have hyear : daysBeforeMonth year (12 + 1) = daysBeforeMonth year 12 + daysInMonth year 12 := rfl
  rw [daysBeforeYear_succ, dayNumber]
  omega

end IsDate

theorem Date.eq_of_number {d e : Date} (h : d.number = e.number) : d = e := by
  obtain ⟨year, month, day, hd⟩ := d
  obtain ⟨year', month', day', he⟩ := e
  unfold number at h
  simp only at h
  have hyear : year = year' := by
    have hbounds := hd.dayNumber_bounds
    have hbounds' := he.dayNumber_bounds
    rcases Int.lt_trichotomy year year' with hlt | heq | hlt
    · have hle := daysBeforeYear_le hlt
      omega
    · exact heq
    · have hle := daysBeforeYear_le hlt
      omega
  subst hyear
  have hdays : daysBeforeMonth year month + day = daysBeforeMonth year month' + day' := by
    unfold dayNumber at h
    omega
  have hmonth : month = month' := by
    have hbounds := hd.day_bounds
    have hbounds' := he.day_bounds
    rcases Nat.lt_trichotomy month month' with hlt | heq | hlt
    · have hle : daysBeforeMonth year (month + 1) ≤ daysBeforeMonth year month' :=
        daysBeforeMonth_le year (Nat.succ_pos month) hlt
      omega
    · exact heq
    · have hle : daysBeforeMonth year (month' + 1) ≤ daysBeforeMonth year month :=
        daysBeforeMonth_le year (Nat.succ_pos month') hlt
      omega
  subst hmonth
  obtain rfl : day = day' := Nat.add_left_cancel hdays
  rfl

/-! ## Instants -/

/-- The nanoseconds from the start of day 0. -/
def Instant.count (i : Instant) : Int :=
  (i.date.number * secondsPerDay + i.time.second) * nanosPerSecond + i.time.nanos

/-- Leap seconds aside an instant has a number of its own, and so it has among leap seconds. -/
theorem Instant.eq_of_count {i j : Instant}
    (hleap : nanosPerSecond ≤ i.time.nanos ↔ nanosPerSecond ≤ j.time.nanos)
    (h : i.count = j.count) : i = j := by
  obtain ⟨date, second, nanos, htime⟩ := i
  obtain ⟨date', second', nanos', htime'⟩ := j
  have hperDay : secondsPerDay = 86400 := rfl
  have hperSecond : nanosPerSecond = 1000000000 := rfl
  have hsecond := htime.1
  have hsecond' := htime'.1
  have hnanos := htime.2
  have hnanos' := htime'.2
  unfold count at h
  simp only [hperDay, hperSecond] at *
  obtain rfl : date = date' := Date.eq_of_number (by omega)
  obtain rfl : second = second' := by omega
  obtain rfl : nanos = nanos' := by omega
  rfl

namespace Instant

variable {date : Date} {time : Time} {offset : Int}

/-- The day in UTC of a time that clocks show, counted from the day that they show. -/
def dayShift (time : Time) (offset : Int) : Int := (time.second - 60 * offset) / secondsPerDay

def shiftedDate? (date : Date) (day : Int) : Option Date :=
  if day = 0 then some date
  else if day = 1 then date.next?
  else if day = -1 then date.previous?
  else none

theorem number_shiftedDate? {day : Int} {e : Date} (h : shiftedDate? date day = some e) :
    e.number = date.number + day := by
  unfold shiftedDate? at h
  split at h
  · rename_i hday
    rw [← Option.some.inj h, hday, Int.add_zero]
  split at h
  · rename_i hday
    rw [Date.number_next? h, hday]
  split at h
  · rename_i hday
    rw [Date.number_previous? h, hday]
    rfl
  · cases h

theorem shiftedDate?_ne_none (time : Time)
    (hyear : -262143 < date.year ∧ date.year < 262142) (hoffset : -1440 < offset ∧ offset < 1440) :
    shiftedDate? date (dayShift time offset) ≠ none := by
  have hperDay : secondsPerDay = 86400 := rfl
  have hsecond : time.second < 86400 := time.isTime.1
  -- Less than a day is between the time shown and the time in UTC.
  have hcases : dayShift time offset = 0 ∨ dayShift time offset = 1 ∨
      dayShift time offset = -1 := by
    rw [dayShift, hperDay]
    omega
  rcases hcases with h | h | h <;> rw [h]
  · exact Option.some_ne_none _
  · exact Date.next?_ne_none hyear.2
  · exact Date.previous?_ne_none hyear.1

theorem ofLocal?_eq (date : Date) (time : Time) (offset : Int) :
    ofLocal? date time offset =
      match shiftedDate? date (dayShift time offset) with
      | none => none
      | some d =>
        if h : IsTime ((time.second - 60 * offset) % secondsPerDay).toNat time.nanos then
          some ⟨d, ⟨((time.second - 60 * offset) % secondsPerDay).toNat, time.nanos, h⟩⟩
        else none := rfl

/-- Clocks show the time of an instant from which they differ by their offset. -/
theorem count_ofLocal? {i : Instant} (h : ofLocal? date time offset = some i) :
    i.time.nanos = time.nanos ∧
      i.count = (date.number * secondsPerDay + time.second - 60 * offset) * nanosPerSecond +
        time.nanos := by
  have hperDay : secondsPerDay = 86400 := rfl
  rw [ofLocal?_eq] at h
  cases hdate : shiftedDate? date (dayShift time offset) with
  | none =>
    rw [hdate] at h
    cases h
  | some d =>
    rw [hdate] at h
    dsimp only at h
    split at h
    · obtain rfl := Option.some.inj h
      refine ⟨rfl, ?_⟩
      have hsum : d.number * secondsPerDay +
          (((time.second - 60 * offset) % secondsPerDay).toNat : Int) =
          date.number * secondsPerDay + time.second - 60 * offset := by
        rw [number_shiftedDate? hdate, dayShift, hperDay]
        omega
      simp only [count, hsum]
    · cases h

/-- Clocks whose offset is less than a day show the time of an instant. -/
theorem ofLocal?_ne_none (hyear : -262143 < date.year ∧ date.year < 262142)
    (htime : time.nanos < nanosPerSecond) (hoffset : -1440 < offset ∧ offset < 1440) :
    ofLocal? date time offset ≠ none := by
  obtain ⟨d, hd⟩ := Option.ne_none_iff_exists'.1 (shiftedDate?_ne_none time hyear hoffset)
  have hisTime : IsTime ((time.second - 60 * offset) % secondsPerDay).toNat time.nanos := by
    have hperDay : secondsPerDay = 86400 := rfl
    have hpositive : 0 < nanosPerSecond := by decide
    refine ⟨?_, by omega⟩
    rw [hperDay]
    omega
  rw [ofLocal?_eq, hd]
  dsimp only
  rw [dif_pos hisTime]
  exact Option.some_ne_none _

end Instant

end EntityQuery
