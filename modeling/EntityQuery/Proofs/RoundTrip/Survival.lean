import EntityQuery.Proofs.Filter.Typing
import EntityQuery.Proofs.RoundTrip.Era
import EntityQuery.Proofs.Time.Recognizing

/-!
# Instants that filters read

A text says that it is in a leap second by the second 60 of a minute, and offsets are whole minutes,
so that the leap seconds that filters read end their minutes in UTC too
(`Instant.isRegular_of_read?`). What keeps such an instant from being read back is only a year with
a sign (`Value.dateTime_survives_iff`).
-/

namespace EntityQuery

/-! ## Leap seconds in texts -/

theorem SecondsText.nanos_lt {u : List Char} {second nanos : Nat} (h : SecondsText u second nanos) :
    nanos < nanosPerSecond := by
  cases h with
  | none => decide
  | seconds _ _ hfraction => exact fractionNanos_lt hfraction

theorem DateTimeText.nanos_lt {u : List Char} {s : ShownTime} (h : DateTimeText u s) :
    s.nanos < nanosPerSecond := by
  cases h with
  | date _ => exact Nat.succ_pos _
  | clock _ _ _ _ _ _ hseconds _ => exact hseconds.nanos_lt

namespace Instant

/-- Both sides of the count are whole minutes and what is left of one, so that the second in front
of second 60 is the last one of its minute. -/
theorem isRegular_of_denotes {s : ShownTime} {i : Instant} (hnanos : s.nanos < nanosPerSecond)
    (h : s.Denotes i) : i.IsRegular := by
  intro hleap
  have hperSecond : nanosPerSecond = 1000000000 := rfl
  have hperDay : secondsPerDay = 86400 := rfl
  have hsixty : s.second = 60 := h.leap.1 hleap
  have hlt := i.time.isTime.2
  have hcount := h.count
  simp only [count, hperSecond, hperDay] at hcount hlt hleap hnanos
  omega

theorem isRegular_of_read? {s : String} {i : Instant} (h : read? s = some i) : i.IsRegular := by
  obtain ⟨shown, htext, hdenotes⟩ := spelledBy_of_read? h
  exact isRegular_of_denotes htext.nanos_lt hdenotes

end Instant

theorem Literal.settled_of_resolve {l : Literal} {t : FieldType} {v : Value}
    (h : l.resolve t = some v) : v.settled = v := by
  cases standsFor_of_resolve h with
  | dateTime _ hread =>
    exact congrArg Value.dateTime (Instant.settled_of_isRegular (Instant.isRegular_of_read? hread))
  | string | number | boolean | guid => rfl

/-! ## What is read back -/

namespace Value

/-- The leap seconds that filters read end their minutes. An instant is read back from documents,
and from its own text, exactly if its year in UTC is one of those from 0 to 9999 and it is in no
other leap second; and what is lost for its year leaves nothing. -/
theorem dateTime_survives_iff :
    ∀ i : Instant, (∀ s, Instant.read? s = some i → i.IsRegular) ∧
      (ofDocument (dateTime i).toDocument = dateTime i ↔ i.InEra ∧ i.IsRegular) ∧
      (Instant.read? i.text = some i ↔ i.InEra ∧ i.IsRegular) ∧
      (ofDocument (dateTime i).toDocument = null ↔ ¬ i.InEra) := by
  intro i
  refine ⟨fun s => Instant.isRegular_of_read?, ?_⟩
  rw [ofDocument_dateTime, Instant.read?_text_eq]
  by_cases h : i.InEra
  · simp [h, Instant.settled_eq_iff]
  · simp [h]

/-- One second before one o'clock on the first day of the year 10000. -/
def afterEra : Instant := ⟨⟨10000, 1, 1, by decide⟩, ⟨3599, 0, by decide⟩⟩

/-- A year of four digits that an offset moves out of the era. -/
theorem dateTime_lost_by_offset :
    Instant.read? "9999-12-31T23:59:59-01:00" = some afterEra ∧
      afterEra.text = "+10000-01-01T00:59:59Z" ∧ Instant.read? afterEra.text = none ∧
      ofDocument (dateTime afterEra).toDocument = null := by
  have hera : ¬ afterEra.InEra := by decide
  refine ⟨by decide, by decide, ?_, ?_⟩
  · rw [Instant.read?_text_eq, if_neg hera]
  · rw [ofDocument_dateTime, if_neg hera]

end Value

end EntityQuery
