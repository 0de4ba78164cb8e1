import EntityQuery.Number.Decimal
import EntityQuery.Text.Blank
import EntityQuery.Time.Instant

/-!
# Reading instants

`Instant.read?` reads a date, or a date and a time with or without an offset; without one the time
is in UTC. Several readers are tried in turn. The strict one takes numbers of fixed width and an
offset; the others take blanks before a number, numbers with fewer digits, and years with a sign
and any number of digits. `Instant.readOffset?` is for data that always has an offset: it takes
blanks between all parts.
-/

namespace EntityQuery

/-- A reader takes characters off the front of a text. -/
abbrev Reader (α : Type) := StateT (List Char) Option α

namespace Reader

/-- What a reader finds if it takes the whole text. -/
def whole {α : Type} (r : Reader α) (cs : List Char) : Option α :=
  match r cs with
  | some (a, []) => some a
  | _ => none

/-- One character that passes a test. -/
def satisfy (p : Char → Bool) : Reader Char := fun cs =>
  match cs with
  | [] => none
  | c :: rest => if p c then some (c, rest) else none

def skip (c : Char) : Reader Unit := do
  let _ ← satisfy (· == c)

/-- Any blanks. -/
def blanks : Reader Unit := fun cs => some ((), Text.dropBlank cs)

/-- A run of digits, as many as there are up to `most`, and not fewer than `least`. -/
def digits (least most : Nat) : Reader (List Char) := fun cs =>
  let ds := (cs.take most).takeWhile Char.isDigit
  if least ≤ ds.length then some (ds, cs.drop ds.length) else none

def number (least most : Nat) : Reader Nat := do
  let ds ← digits least most
  pure (Decimal.digitsValue ds)

/-- A run of at least one digit, however long. -/
def longNumber : Reader Nat := fun cs => number 1 cs.length cs

/-- A number of at most two digits, blanks before it passed over. -/
def shortNumber : Reader Nat := do
  blanks
  number 1 2

/-- Nanoseconds from the digits after a point; digits after the ninth are dropped. -/
def fraction : Reader Nat := fun cs =>
  match cs with
  | '.' :: rest => (do
      let ds ← digits 1 9
      let _ ← digits 0 rest.length
      pure (Decimal.digitsValue ds * tenTo (9 - ds.length)) : Reader Nat) rest
  | _ => some (0, cs)

/-- A year of up to four digits, or one of any length behind a sign. -/
def year : Reader Int := do
  blanks
  fun cs =>
    match cs with
    | '-' :: rest => (longNumber rest).map fun r => (-(r.1 : Int), r.2)
    | '+' :: rest => (longNumber rest).map fun r => ((r.1 : Int), r.2)
    | _ => (number 1 4 cs).map fun r => ((r.1 : Int), r.2)

/-- A plus or a minus, which may be the typographic one: is it a minus? -/
def sign : Reader Bool := do
  let c ← satisfy fun c => c == '+' || c == '-' || c == '\u2212'
  pure (c != '+')

/-- A signed offset of hours and minutes, in minutes. `separator` reads what stands between. -/
def signedOffset (separator : Reader Unit) : Reader Int := do
  let negative ← sign
  let hours ← number 2 2
  separator
  let minutes ← number 2 2
  if 60 ≤ minutes ∨ 24 ≤ hours then failure
  else
    let total : Int := hours * 60 + minutes
    pure (if negative then -total else total)

/-- A `Z` in either case for no offset, or a signed offset. -/
def offsetOrZ (separator : Reader Unit) : Reader Int := fun cs =>
  match cs with
  | 'Z' :: rest => some (0, rest)
  | 'z' :: rest => some (0, rest)
  | _ => signedOffset separator cs

/-- Any mixture of colons and blanks. -/
def colonsOrBlanks : Reader Unit := fun cs =>
  some ((), cs.dropWhile fun c => c == ':' || Text.isBlank c)

/-- A date of numbers of fixed width. -/
def strictDate : Reader Date := do
  let y ← number 4 4
  skip '-'
  let m ← number 2 2
  skip '-'
  let d ← number 2 2
  StateT.lift (Date.of? y m d)

def looseDate : Reader Date := do
  let y ← year
  skip '-'
  let m ← shortNumber
  skip '-'
  let d ← shortNumber
  StateT.lift (Date.of? y m d)

/-- A date with blanks before each hyphen too. -/
def spacedDate : Reader Date := do
  let y ← year
  blanks
  skip '-'
  let m ← shortNumber
  blanks
  skip '-'
  let d ← shortNumber
  StateT.lift (Date.of? y m d)

/-- What stands between a date and a time. -/
def separator : Reader Unit := do
  let _ ← satisfy fun c => c == 'T' || c == 't' || c == ' '

/-- A date and a time of fixed width with an offset: `2024-01-31T10:00:00.5+02:00`. -/
def strict : Reader Instant := do
  let date ← strictDate
  separator
  let hour ← number 2 2
  skip ':'
  let minute ← number 2 2
  skip ':'
  let second ← number 2 2
  let nanos ← fraction
  let offset ← offsetOrZ (skip ':')
  let time ← StateT.lift (Time.of? hour minute second nanos)
  StateT.lift (Instant.ofLocal? date time offset)

/-- A date and a time to the minute with an offset in numbers. -/
def minuteOffset : Reader Instant := do
  let date ← looseDate
  skip 'T'
  let hour ← shortNumber
  skip ':'
  let minute ← shortNumber
  blanks
  let offset ← signedOffset colonsOrBlanks
  let time ← StateT.lift (Time.of? hour minute 0 0)
  StateT.lift (Instant.ofLocal? date time offset)

/-- A date and a time to the second or finer, in UTC. -/
def secondUtc : Reader Instant := do
  let date ← looseDate
  skip 'T'
  let hour ← shortNumber
  skip ':'
  let minute ← shortNumber
  skip ':'
  let second ← shortNumber
  let nanos ← fraction
  let time ← StateT.lift (Time.of? hour minute second nanos)
  pure ⟨date, time⟩

/-- A date and a time to the minute, in UTC. -/
def minuteUtc : Reader Instant := do
  let date ← looseDate
  skip 'T'
  let hour ← shortNumber
  skip ':'
  let minute ← shortNumber
  let time ← StateT.lift (Time.of? hour minute 0 0)
  pure ⟨date, time⟩

/-- A date alone, which stands for its first moment. -/
def dateAlone : Reader Instant := do
  let date ← looseDate
  pure ⟨date, .midnight⟩

/-- `UTC` in any case, or an offset. -/
def offsetOrUtc : Reader Int := fun cs =>
  if (cs.take 3).map Char.toUpper = ['U', 'T', 'C'] then some (0, cs.drop 3)
  else offsetOrZ colonsOrBlanks cs

/-- A date and a time with an offset, with blanks between any two parts. -/
def spaced : Reader Instant := do
  let date ← spacedDate
  separator
  let hour ← shortNumber
  blanks
  skip ':'
  let minute ← shortNumber
  blanks
  skip ':'
  let second ← shortNumber
  let nanos ← fraction
  blanks
  let offset ← offsetOrUtc
  blanks
  let time ← StateT.lift (Time.of? hour minute second nanos)
  StateT.lift (Instant.ofLocal? date time offset)

end Reader

namespace Instant

/-- An instant in any of the accepted shapes. -/
def read? (s : String) : Option Instant :=
  let cs := s.toList
  Reader.strict.whole cs <|> Reader.minuteOffset.whole cs <|> Reader.secondUtc.whole cs <|>
    Reader.minuteUtc.whole cs <|> Reader.dateAlone.whole cs

/-- An instant whose text has an offset. -/
def readOffset? (s : String) : Option Instant := Reader.spaced.whole s.toList

end Instant

end EntityQuery
