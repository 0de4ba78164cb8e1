import EntityQuery.Time.Date

/-!
# Instants

An instant is a date and a time of day in UTC, to the nanosecond. A leap second is kept as the
second before it with a thousand million nanoseconds or more, so that it sorts after that second
and before the next one. A time may have one behind any second, but texts have one only behind the
last second of a minute (`Time.of?`). `Instant.text` writes an instant with `Z` and with 0, 3, 6 or
9 digits after the point, the fewest that lose nothing; a leap second is written as one second more
than the second that it follows.
-/

namespace EntityQuery

/-- One second in nanoseconds. -/
def nanosPerSecond : Nat := 1000000000

def secondsPerDay : Nat := 86400

/-- A time of day: the second of the day and the nanoseconds from its start, which go on through a
leap second. -/
def IsTime (second nanos : Nat) : Prop :=
  second < secondsPerDay ∧ nanos < 2 * nanosPerSecond

instance (second nanos : Nat) : Decidable (IsTime second nanos) := by
  unfold IsTime; infer_instance

structure Time where
  second : Nat
  nanos : Nat
  isTime : IsTime second nanos
  deriving DecidableEq

namespace Time

/-- A time from its parts; second 60 is a leap second behind the last second of its minute. -/
def of? (hour minute second nanos : Nat) : Option Time :=
  if hour < 24 ∧ minute < 60 ∧ second ≤ 60 ∧ nanos < nanosPerSecond then
    let start := hour * 3600 + minute * 60
    let s := if second = 60 then start + 59 else start + second
    let n := if second = 60 then nanos + nanosPerSecond else nanos
    if h : IsTime s n then some ⟨s, n, h⟩ else none
  else none

def midnight : Time := ⟨0, 0, by decide⟩

def compare (a b : Time) : Ordering :=
  (Ord.compare a.second b.second).then (Ord.compare a.nanos b.nanos)

end Time

structure Instant where
  date : Date
  time : Time
  deriving DecidableEq

namespace Instant

/-- The instant at which clocks that are `offset` minutes ahead of UTC show a date and a time. -/
def ofLocal? (date : Date) (time : Time) (offset : Int) : Option Instant :=
  let total : Int := time.second - 60 * offset
  let second := (total % secondsPerDay).toNat
  let day := total / secondsPerDay
  let date? :=
    if day = 0 then some date
    else if day = 1 then date.next?
    else if day = -1 then date.previous?
    else none
  match date? with
  | none => none
  | some d => if h : IsTime second time.nanos then some ⟨d, ⟨second, time.nanos, h⟩⟩ else none

def compare (a b : Instant) : Ordering := (a.date.compare b.date).then (a.time.compare b.time)

/-! ## Text -/

/-- Decimal digits with zeros in front, at least `width` of them. -/
def padded (width n : Nat) : List Char :=
  let ds := Nat.toDigits 10 n
  List.replicate (width - ds.length) '0' ++ ds

/-- Years of four digits stand alone, all others with a sign. -/
def yearChars (year : Int) : List Char :=
  if 0 ≤ year ∧ year ≤ 9999 then padded 4 year.toNat
  else (if year < 0 then '-' else '+') :: padded 4 year.natAbs

def fractionChars (nanos : Nat) : List Char :=
  if nanos = 0 then []
  else if nanos % 1000000 = 0 then '.' :: padded 3 (nanos / 1000000)
  else if nanos % 1000 = 0 then '.' :: padded 6 (nanos / 1000)
  else '.' :: padded 9 nanos

def dateChars (d : Date) : List Char :=
  yearChars d.year ++ '-' :: padded 2 d.month ++ '-' :: padded 2 d.day

def timeChars (t : Time) : List Char :=
  let leap := nanosPerSecond ≤ t.nanos
  let second := t.second % 60 + if leap then 1 else 0
  padded 2 (t.second / 3600) ++ ':' :: padded 2 (t.second / 60 % 60) ++ ':' :: padded 2 second ++
    fractionChars (if leap then t.nanos - nanosPerSecond else t.nanos)

def chars (i : Instant) : List Char := dateChars i.date ++ 'T' :: timeChars i.time ++ ['Z']

def text (i : Instant) : String := String.ofList i.chars

end Instant

end EntityQuery
