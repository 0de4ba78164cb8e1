import EntityQuery.Proofs.Time.Calendar
import EntityQuery.Proofs.Time.Written

/-!
# What written date-times stand for

A written date-time whose parts are in range stands for an instant: its local time less the offset,
in UTC without a zone, where the parts that are missing are zero and a fraction is cut to
nanoseconds (`WrittenTime.Denotes`). It stands for one instant only (`WrittenTime.Denotes.unique`),
the one at which clocks with the offset show the time (`WrittenClock.exists_ofLocal?`).
-/

namespace EntityQuery

/-! ## The instant -/

/-- The nanoseconds of a fraction: its first nine digits, with zeros for those that are missing. -/
def fractionNanos (fraction : List Char) : Nat :=
  Decimal.digitsValue ((fraction ++ List.replicate 9 '0').take 9)

namespace WrittenZone

/-- How far the clocks are ahead of UTC. -/
def minutes : WrittenZone → Int
  | utc => 0
  | offset negative hour minute =>
    let total : Int := hour * 60 + minute
    if negative then -total else total

def InRange : WrittenZone → Prop
  | utc => True
  | offset _ hour minute => (hour : Nat) ≤ 23 ∧ (minute : Nat) ≤ 59

end WrittenZone

namespace WrittenClock

/-- The second of the day. -/
def second (c : WrittenClock) : Nat :=
  c.hour * 3600 + c.minute * 60 + c.seconds.elim 0 fun s => (s.second : Nat)

def nanos (c : WrittenClock) : Nat := c.seconds.elim 0 fun s => fractionNanos s.fraction

/-- Without a zone the time is in UTC. -/
def offset (c : WrittenClock) : Int := c.zone.elim 0 WrittenZone.minutes

structure InRange (c : WrittenClock) : Prop where
  hour : (c.hour : Nat) ≤ 23
  minute : (c.minute : Nat) ≤ 59
  second : ∀ s ∈ c.seconds, (s.second : Nat) ≤ 59
  zone : ∀ z ∈ c.zone, z.InRange

end WrittenClock

namespace WrittenTime

structure InRange (w : WrittenTime) : Prop where
  isDate : IsDate w.year w.month w.day
  clock : ∀ c ∈ w.clock, c.InRange

/-- The nanoseconds from the start of day 0 to the local time less the offset. -/
def count (w : WrittenTime) : Int :=
  (dayNumber w.year w.month w.day * secondsPerDay +
      w.clock.elim 0 fun c => c.second - 60 * c.offset) * nanosPerSecond +
    w.clock.elim 0 fun c => (c.nanos : Int)

/-- The instant that is written; it is never in a leap second. -/
def Denotes (w : WrittenTime) (i : Instant) : Prop :=
  i.time.nanos < nanosPerSecond ∧ i.count = w.count

theorem Denotes.unique {w : WrittenTime} {i j : Instant} (hi : w.Denotes i) (hj : w.Denotes j) :
    i = j :=
  Instant.eq_of_count (iff_of_false (Nat.not_le.2 hi.1) (Nat.not_le.2 hj.1)) (hi.2.trans hj.2.symm)

end WrittenTime

/-! ## Times of day -/

theorem Time.of?_eq_some {hour minute second nanos : Nat} (hh : hour ≤ 23) (hm : minute ≤ 59)
    (hs : second ≤ 59) (hn : nanos < nanosPerSecond) :
    ∃ t, of? hour minute second nanos = some t ∧
      t.second = hour * 3600 + minute * 60 + second ∧ t.nanos = nanos := by
  have hperDay : secondsPerDay = 86400 := rfl
  have hperSecond : nanosPerSecond = 1000000000 := rfl
  have hrange : hour < 24 ∧ minute < 60 ∧ second ≤ 60 ∧ nanos < nanosPerSecond := by omega
  have hleap : ¬ second = 60 := by omega
  have hisTime : IsTime (hour * 3600 + minute * 60 + second) nanos := by
    constructor <;> omega
  refine ⟨⟨_, nanos, hisTime⟩, ?_, rfl, rfl⟩
  simp only [of?, if_pos hrange, if_neg hleap]
  exact dif_pos hisTime

theorem digitsValue_append_zeros (ds : List Char) (k : Nat) :
    Decimal.digitsValue (ds ++ List.replicate k '0') = Decimal.digitsValue ds * tenTo k := by
  show Nat.ofDigitChars 10 (ds ++ List.replicate k '0') 0 = Nat.ofDigitChars 10 ds 0 * 10 ^ k
  rw [Nat.ofDigitChars_append, Nat.ofDigitChars_replicate_zero, Nat.mul_comm]

theorem fractionNanos_eq (fraction : List Char) :
    fractionNanos fraction =
      Decimal.digitsValue (fraction.take 9) * tenTo (9 - (fraction.take 9).length) := by
  have htake : (fraction ++ List.replicate 9 '0').take 9 =
      fraction.take 9 ++ List.replicate (9 - (fraction.take 9).length) '0' := by
    rw [List.take_append, List.take_replicate, List.length_take]
    congr 2
    omega
  rw [fractionNanos, htake, digitsValue_append_zeros]

theorem fractionNanos_lt {fraction : List Char} (h : ∀ c ∈ fraction, c.isDigit = true) :
    fractionNanos fraction < nanosPerSecond := by
  have hdigits : ∀ c ∈ (fraction ++ List.replicate 9 '0').take 9, c.isDigit = true := by
    intro c hc
    rcases List.mem_append.1 (List.mem_of_mem_take hc) with hc | hc
    · exact h c hc
    · rw [List.eq_of_mem_replicate hc]
      rfl
  have hlt := Decimal.digitsValue_lt hdigits
  have hlen : ((fraction ++ List.replicate 9 '0').take 9).length = 9 := by
    rw [List.length_take, List.length_append, List.length_replicate]
    omega
  rw [hlen] at hlt
  exact hlt

/-! ## Clocks -/

theorem WrittenZone.minutes_bounds {z : WrittenZone} (h : z.InRange) :
    -1440 < z.minutes ∧ z.minutes < 1440 := by
  cases z with
  | utc => decide
  | offset negative hour minute =>
    obtain ⟨hh, hm⟩ := h
    cases negative <;> simp only [minutes] <;> omega

namespace WrittenClock

theorem nanos_lt (c : WrittenClock) : c.nanos < nanosPerSecond := by
  unfold nanos
  cases c.seconds with
  | none => decide
  | some s => exact fractionNanos_lt s.isDigit

variable {d : Date} {c : WrittenClock}

theorem offset_bounds (h : c.InRange) : -1440 < c.offset ∧ c.offset < 1440 := by
  unfold offset
  cases hz : c.zone with
  | none => decide
  | some z => exact WrittenZone.minutes_bounds (h.zone z hz)

/-- Clocks show what is written at some instant. -/
theorem exists_ofLocal? (hera : 0 ≤ d.year ∧ d.year ≤ 9999) (h : c.InRange) :
    ∃ t i, Time.of? c.hour c.minute (c.seconds.elim 0 fun s => (s.second : Nat)) c.nanos = some t ∧
      Instant.ofLocal? d t c.offset = some i ∧ i.time.nanos < nanosPerSecond ∧
      i.count = (d.number * secondsPerDay + (c.second - 60 * c.offset)) * nanosPerSecond +
        c.nanos := by
  have hsecond : (c.seconds.elim 0 fun s => (s.second : Nat)) ≤ 59 := by
    cases hs : c.seconds with
    | none => decide
    | some s => exact h.second s hs
  obtain ⟨t, ht, hseconds, hnanos⟩ := Time.of?_eq_some h.hour h.minute hsecond c.nanos_lt
  have hlt : t.nanos < nanosPerSecond := hnanos ▸ c.nanos_lt
  have hyear : -262143 < d.year ∧ d.year < 262142 := by omega
  obtain ⟨i, hi⟩ := Option.ne_none_iff_exists'.1
    (Instant.ofLocal?_ne_none hyear hlt (offset_bounds h))
  obtain ⟨hsame, hcount⟩ := Instant.count_ofLocal? hi
  refine ⟨t, i, ht, hi, hsame ▸ hlt, ?_⟩
  rw [hcount, hseconds, hnanos, Int.add_sub_assoc]
  rfl

end WrittenClock

/-! ## Days -/

namespace WrittenTime

variable {w : WrittenTime}

def date (w : WrittenTime) (h : w.InRange) : Date := ⟨w.year, w.month, w.day, h.isDate⟩

theorem date_year (h : w.InRange) : 0 ≤ (w.date h).year ∧ (w.date h).year ≤ 9999 := by
  have hlt : (w.year : Nat) < 10000 := w.year.isLt
  show 0 ≤ ((w.year : Nat) : Int) ∧ ((w.year : Nat) : Int) ≤ 9999
  omega

theorem chars_eq (h : w.InRange) :
    w.chars = Instant.dateChars (w.date h) ++ w.clock.elim [] WrittenClock.chars := by
  have hyear : Instant.yearChars (w.date h).year = Instant.padded 4 w.year :=
    if_pos (date_year h)
  rw [Instant.dateChars, hyear, List.append_assoc, List.append_assoc]
  rfl

end WrittenTime

end EntityQuery
