import EntityQuery.Number.Basic

/-!
# Decimal text

A decimal is a sign, a string of digits read as a whole number, and a power of ten. `Decimal.read?`
reads `-12.5e3` and its kin: an optional sign, digits with at most one point and at least one
digit beside it, and an optional exponent. `Decimal.toNumber` is the number nearest to it.
-/

namespace EntityQuery

/-- The value `digits * 10^exponent`, negated if `negative`. -/
structure Decimal where
  negative : Bool
  digits : Nat
  exponent : Int
  deriving DecidableEq, Repr

namespace Decimal

/-- The whole number that a run of digits stands for. -/
def digitsValue (ds : List Char) : Nat := ds.foldl (fun n c => 10 * n + (c.toNat - '0'.toNat)) 0

/-- A leading sign and the rest. Without one the sign is plus. -/
def splitSign : List Char → Bool × List Char
  | '-' :: cs => (true, cs)
  | '+' :: cs => (false, cs)
  | cs => (false, cs)

/-- An exponent part, or nothing at all, which stands for exponent zero. -/
def readExponent? : List Char → Option Int
  | [] => some 0
  | c :: cs =>
    if c = 'e' ∨ c = 'E' then
      let (negative, ds) := splitSign cs
      if ds ≠ [] ∧ ds.all Char.isDigit then
        some (if negative then -(digitsValue ds) else digitsValue ds)
      else none
    else none

/-- The digits after a point, if there is one, and the rest. -/
def splitFraction : List Char → List Char × List Char
  | '.' :: cs => (cs.takeWhile Char.isDigit, cs.dropWhile Char.isDigit)
  | cs => ([], cs)

def readChars? (cs : List Char) : Option Decimal :=
  let (negative, rest) := splitSign cs
  let whole := rest.takeWhile Char.isDigit
  let (fraction, rest) := splitFraction (rest.dropWhile Char.isDigit)
  if whole = [] ∧ fraction = [] then none
  else (readExponent? rest).map fun e =>
    ⟨negative, digitsValue (whole ++ fraction), e - fraction.length⟩

def read? (s : String) : Option Decimal := readChars? s.toList

/-- How many decimal digits a count has; zero has none. -/
def digitCount (n : Nat) : Nat := if n = 0 then 0 else (Nat.toDigits 10 n).length

/-- The nearest number. Decimals from 10^310 up are too large for a finite one, and those below
10^-330 are nearest to zero, so that the power of ten need not be formed for them. -/
def toNumber (d : Decimal) : Number :=
  let magnitude := d.exponent + digitCount d.digits
  if d.digits = 0 ∨ magnitude < -330 then .finite d.negative 0
  else if magnitude > 310 then .infinite d.negative
  else Number.round d.negative (d.digits * tenTo d.exponent.toNat * Number.unitsPerOne)
    (tenTo (-d.exponent).toNat)

end Decimal

namespace Number

/-- The words that stand for numbers without a decimal. -/
def readWord? (s : String) : Option Number :=
  let (negative, rest) := Decimal.splitSign s.toList
  let w := String.ofList (rest.map Char.toLower)
  if w = "inf" ∨ w = "infinity" then some (.infinite negative)
  else if w = "nan" then some .nan
  else none

/-- A number from its text: a decimal, or one of the words for infinity and NaN in any case. -/
def read? (s : String) : Option Number :=
  match Decimal.read? s with
  | some d => some d.toNumber
  | none => readWord? s

end Number

end EntityQuery
