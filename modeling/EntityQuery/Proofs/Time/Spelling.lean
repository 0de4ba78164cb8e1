import EntityQuery.Proofs.Time.Denoted

/-!
# Texts of instants

Which texts show a time (`DateTimeText`): a date and perhaps a time of day with or without an offset,
where numbers may have fewer digits and blanks in front of them. A text stands for the instant at
which clocks with the offset show the time (`Instant.SpelledBy`).
-/

namespace EntityQuery

/-! ## Texts -/

inductive DateText : List Char → Date → Prop where
  | mk {b y b' m b'' d : List Char} {date : Date} : AllBlank b → YearText y date.year →
      AllBlank b' → NumberText 1 2 m date.month → AllBlank b'' → NumberText 1 2 d date.day →
      DateText (b ++ (y ++ '-' :: (b' ++ (m ++ '-' :: (b'' ++ d))))) date

/-- Seconds with their nanoseconds, or neither. -/
inductive SecondsText : List Char → Nat → Nat → Prop where
  | none : SecondsText [] 0 0
  | seconds {b s fraction : List Char} {second : Nat} : AllBlank b → NumberText 1 2 s second →
      (∀ c ∈ fraction, c.isDigit = true) →
      SecondsText (':' :: (b ++ (s ++ pointChars fraction))) second (fractionNanos fraction)

/-- How many minutes clocks are ahead of UTC. -/
inductive OffsetText : List Char → Int → Prop where
  | none : OffsetText [] 0
  | utc {c : Char} : c = 'Z' ∨ c = 'z' → OffsetText [c] 0
  | signed {b h gap m : List Char} {c : Char} {hour minute : Nat} : AllBlank b →
      c = '+' ∨ c = '-' ∨ c = '\u2212' → NumberText 2 2 h hour → hour ≤ 23 →
      (∀ d ∈ gap, d = ':' ∨ Text.isBlank d = true) → NumberText 2 2 m minute → minute ≤ 59 →
      OffsetText (b ++ c :: (h ++ (gap ++ m)))
        (if c = '+' then hour * 60 + minute else -(hour * 60 + minute))

/-- What clocks show, and how many minutes they are ahead of UTC. -/
structure ShownTime where
  date : Date
  hour : Nat
  minute : Nat
  second : Nat
  nanos : Nat
  offset : Int

inductive DateTimeText : List Char → ShownTime → Prop where
  | date {u : List Char} {date : Date} : DateText u date → DateTimeText u ⟨date, 0, 0, 0, 0, 0⟩
  | clock {u b h b' m s z : List Char} {c : Char} {date : Date} {hour minute second nanos : Nat}
      {offset : Int} : DateText u date → c = 'T' ∨ c = 't' ∨ c = ' ' → AllBlank b →
      NumberText 1 2 h hour → AllBlank b' → NumberText 1 2 m minute →
      SecondsText s second nanos → OffsetText z offset →
      DateTimeText (u ++ c :: (b ++ (h ++ ':' :: (b' ++ (m ++ (s ++ z))))))
        ⟨date, hour, minute, second, nanos, offset⟩

/-- The instant at which clocks show the time. Second 60 is a leap second. -/
structure ShownTime.Denotes (s : ShownTime) (i : Instant) : Prop where
  hour : s.hour ≤ 23
  minute : s.minute ≤ 59
  second : s.second ≤ 60
  leap : nanosPerSecond ≤ i.time.nanos ↔ s.second = 60
  count : i.count = (s.date.number * secondsPerDay +
    (s.hour * 3600 + s.minute * 60 + s.second : Nat) - 60 * s.offset) * nanosPerSecond + s.nanos

theorem ShownTime.Denotes.unique {s : ShownTime} {i j : Instant} (hi : s.Denotes i)
    (hj : s.Denotes j) : i = j :=
  Instant.eq_of_count (hi.leap.trans hj.leap.symm) (hi.count.trans hj.count.symm)

/-- The text stands for the instant. -/
def Instant.SpelledBy (i : Instant) (cs : List Char) : Prop :=
  ∃ s, DateTimeText cs s ∧ s.Denotes i

end EntityQuery
