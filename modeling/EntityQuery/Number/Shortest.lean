import EntityQuery.Number.Basic

/-!
# Shortest decimal text

A finite number is written with the fewest digits that read back to it, and of those with the
digits nearest to it (`shortest`). The reals that read back form an interval from halfway to the
neighbour below to halfway to the neighbour above, ends included when the number's last binary
digit is zero (`readsBack`). How the digits are laid out is a `Layout`.
-/

namespace EntityQuery.Number

/-- Where a tie between two equally near candidates goes. -/
inductive Tie where
  | even
  | up
  deriving DecidableEq, Repr

/-- The decisions of a layout. `plainFrom` and `plainBelow` bound the exponents of the leading
digit that are written out in full; a whole number then ends in `.0`. -/
structure Layout where
  plainFrom : Int
  plainBelow : Int
  plusInExponent : Bool
  tie : Tie

/-- Does `digits * 10^exponent` lie among the reals that round to a magnitude of `units`? All ends
are compared in quarters of a unit. -/
def readsBack (units digits : Nat) (exponent : Int) : Bool :=
  let step := spacing units
  let isPower := units = step * twoTo 52 ∧ step > 1
  let low := 4 * units - (if isPower then step else 2 * step)
  let high := 4 * units + 2 * step
  let inclusive := units / step % 2 == 0
  let value := 4 * digits * tenTo exponent.toNat * unitsPerOne
  let scale := tenTo (-exponent).toNat
  let below := low * scale < value || (inclusive && low * scale == value)
  let above := value < high * scale || (inclusive && value == high * scale)
  below && above

/-- The exponent of the power of ten just above a positive magnitude: the least `k` with
`units * 2^-1074 < 10^k`. -/
def scale (units : Nat) : Int :=
  if units ≥ unitsPerOne then (Nat.toDigits 10 (units / unitsPerOne)).length
  else match (List.range 325).find? fun j => units * tenTo (j + 1) ≥ unitsPerOne with
    | some j => -j
    | none => -324

/-- The best of the two neighbours of `units` on the grid of `10^exponent`, if one reads back. -/
def onGrid? (tie : Tie) (units : Nat) (exponent : Int) : Option Nat :=
  let num := units * tenTo (-exponent).toNat
  let den := unitsPerOne * tenTo exponent.toNat
  let below := num / den
  let nearer := match Ord.compare (2 * (num % den)) den with
    | .lt => below
    | .gt => below + 1
    | .eq => match tie with
      | .up => below + 1
      | .even => if below % 2 = 0 then below else below + 1
  let other := if nearer = below then below + 1 else below
  if readsBack units nearer exponent then some nearer
  else if readsBack units other exponent then some other
  else none

/-- Digits `d₁ d₂ …` and a point position `p`, for the value `0.d₁d₂… * 10^p`. -/
structure Digits where
  digits : List Char
  point : Int

/-- Digits of a grid point without zeros at the end. -/
def Digits.ofGrid (n : Nat) (exponent : Int) : Digits :=
  let ds := Nat.toDigits 10 n
  ⟨(ds.reverse.dropWhile (· = '0')).reverse, ds.length + exponent⟩

/-- The fewest digits that read back to a positive magnitude. Seventeen suffice; all the digits
of the exact value stand in for more. -/
def shortest (tie : Tie) (units : Nat) : Digits :=
  let exponents : List Int := (List.range 17).map fun (n : Nat) => scale units - (n + 1)
  match exponents.findSome? fun e => (onGrid? tie units e).map fun d => Digits.ofGrid d e with
  | some ds => ds
  | none => Digits.ofGrid (units * tenTo 1074 / unitsPerOne) (-1074)

def zeros (n : Nat) : List Char := List.replicate n '0'

def Digits.layOut (l : Layout) (d : Digits) : List Char :=
  let lead := d.point - 1
  if l.plainFrom ≤ lead ∧ lead < l.plainBelow then
    if d.point ≤ 0 then '0' :: '.' :: zeros (-d.point).toNat ++ d.digits
    else
      let n := d.point.toNat
      if d.digits.length ≤ n then d.digits ++ zeros (n - d.digits.length) ++ ['.', '0']
      else d.digits.take n ++ '.' :: d.digits.drop n
  else
    let mantissa := match d.digits with
      | [] => []
      | [c] => [c]
      | c :: cs => c :: '.' :: cs
    let sign := if lead < 0 then ['-'] else if l.plusInExponent then ['+'] else []
    mantissa ++ 'e' :: sign ++ Nat.toDigits 10 lead.natAbs

/-- The text of a finite number. -/
def finiteText (l : Layout) (negative : Bool) (units : Nat) : String :=
  let body := if units = 0 then "0.0" else String.ofList ((shortest l.tie units).layOut l)
  if negative then "-" ++ body else body

end EntityQuery.Number
