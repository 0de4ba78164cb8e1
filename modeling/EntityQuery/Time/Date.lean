/-!
# Dates

A date is a day of the Gregorian calendar, extended to both sides, with a year from -262143 to
262142. Dates are ordered by year, month and day; `next?` and `previous?` step by one day and stop
at the ends of the range.
-/

namespace EntityQuery

def isLeapYear (year : Int) : Bool :=
  year % 4 == 0 && (year % 100 != 0 || year % 400 == 0)

def daysInMonth (year : Int) (month : Nat) : Nat :=
  match month with
  | 2 => if isLeapYear year then 29 else 28
  | 4 | 6 | 9 | 11 => 30
  | _ => 31

/-- Is there such a day? -/
def IsDate (year : Int) (month day : Nat) : Prop :=
  (-262143 ≤ year ∧ year ≤ 262142) ∧ (1 ≤ month ∧ month ≤ 12) ∧
    (1 ≤ day ∧ day ≤ daysInMonth year month)

instance (year : Int) (month day : Nat) : Decidable (IsDate year month day) := by
  unfold IsDate; infer_instance

structure Date where
  year : Int
  month : Nat
  day : Nat
  isDate : IsDate year month day
  deriving DecidableEq

namespace Date

def of? (year : Int) (month day : Nat) : Option Date :=
  if h : IsDate year month day then some ⟨year, month, day, h⟩ else none

/-- The day after, unless it is out of range. -/
def next? (d : Date) : Option Date :=
  of? d.year d.month (d.day + 1) <|> of? d.year (d.month + 1) 1 <|> of? (d.year + 1) 1 1

/-- The day before, unless it is out of range. -/
def previous? (d : Date) : Option Date :=
  of? d.year d.month (d.day - 1) <|>
    of? d.year (d.month - 1) (daysInMonth d.year (d.month - 1)) <|> of? (d.year - 1) 12 31

def compare (a b : Date) : Ordering :=
  ((Ord.compare a.year b.year).then (Ord.compare a.month b.month)).then (Ord.compare a.day b.day)

/-! ## Dates and their parts -/

theorem of?_parts (d : Date) : of? d.year d.month d.day = some d := by
  simp [of?, d.isDate]

theorem of?_eq_some {year : Int} {month day : Nat} {d : Date} (h : of? year month day = some d) :
    d.year = year ∧ d.month = month ∧ d.day = day := by
  unfold of? at h
  split at h
  · cases h; exact ⟨rfl, rfl, rfl⟩
  · cases h

end Date

end EntityQuery
