import EntityQuery.Number.Power

/-!
# Numbers

A number is an IEEE binary64 value. Every finite one is a whole multiple of the least positive
value, 2^-1074, so it is held as a sign and a count of that unit: order is then order of
integers (`compare`), and the whole numbers are the multiples of `unitsPerOne`. `round` takes an
exact quotient to the nearest number, a tie to the even neighbour. Whole numbers below 2^53 are held
exactly (`ofInt_eq`).
-/

namespace EntityQuery

inductive Number where
  /-- The value `units * 2^-1074`, negated if `negative`. -/
  | finite (negative : Bool) (units : Nat)
  | infinite (negative : Bool)
  | nan
  deriving DecidableEq, Repr

namespace Number

/-- The unit is 2 to the power of minus this. -/
@[irreducible] def unitExponent : Nat := 1074

/-- Finite magnitudes are below 2 to this power. -/
@[irreducible] def limitExponent : Nat := 1024

/-- How many units make one. -/
@[irreducible] def unitsPerOne : Nat := twoTo unitExponent

/-- The count of units from which a magnitude is too large to be finite. -/
@[irreducible] def unitsLimit : Nat := twoTo (limitExponent + unitExponent)

/-- The quotient rounded to the nearest integer, a tie to the even one. -/
def roundQuotient (num den : Nat) : Nat :=
  let q := num / den
  match compare (2 * (num % den)) den with
  | .lt => q
  | .gt => q + 1
  | .eq => if q % 2 = 0 then q else q + 1

/-- The distance between neighbours at a magnitude of `units`: 53 binary digits are kept. -/
def spacing (units : Nat) : Nat := twoTo (units.log2 - 52)

/-- The nearest number to `num / den` units. -/
def round (negative : Bool) (num den : Nat) : Number :=
  let step := spacing (num / den)
  let units := roundQuotient num (den * step) * step
  if units < unitsLimit then .finite negative units else .infinite negative

def ofInt (n : Int) : Number := round (decide (n < 0)) (n.natAbs * unitsPerOne) 1

def isFinite : Number → Bool
  | finite _ _ => true
  | _ => false

def negate : Number → Number
  | finite s u => finite (!s) u
  | infinite s => infinite (!s)
  | nan => nan

/-- The signed count of units of a finite number. Both zeros count nothing. -/
def signedUnits (negative : Bool) (units : Nat) : Int := if negative then -units else units

/-- Order of numbers; nothing is comparable with a NaN. -/
def compare : Number → Number → Option Ordering
  | finite s u, finite t v => some (Ord.compare (signedUnits s u) (signedUnits t v))
  | infinite s, infinite t => some (Ord.compare (!s) (!t))
  | infinite s, finite _ _ => some (if s then .lt else .gt)
  | finite _ _, infinite s => some (if s then .gt else .lt)
  | nan, _ => none
  | _, nan => none

/-- The integer that a number equals, if it is whole and its magnitude below 2^53. -/
def whole? : Number → Option Int
  | finite s u =>
    if u % unitsPerOne = 0 ∧ u / unitsPerOne < twoTo 53 then
      some (signedUnits s (u / unitsPerOne))
    else none
  | _ => none

/-! ## Whole numbers below 2^53 are exact -/

theorem unitsPerOne_eq : unitsPerOne = twoTo unitExponent := by unfold unitsPerOne; rfl

theorem unitsLimit_eq : unitsLimit = twoTo limitExponent * unitsPerOne := by
  rw [unitsPerOne_eq, ← twoTo_add]; unfold unitsLimit; rfl

theorem le_limitExponent : 53 ≤ limitExponent := by unfold limitExponent; decide

theorem unitsPerOne_pos : 0 < unitsPerOne := by
  rw [unitsPerOne_eq]; exact twoTo_pos _

theorem roundQuotient_mul (n den : Nat) (h : 0 < den) : roundQuotient (n * den) den = n := by
  have h1 : n * den / den = n := Nat.mul_div_cancel _ h
  have h2 : n * den % den = 0 := Nat.mul_mod_left ..
  have h3 : Ord.compare 0 den = .lt := Nat.compare_eq_lt.2 h
  simp [roundQuotient, h1, h2, h3]

theorem spacing_dvd {n : Nat} (h : n < twoTo 53) : spacing (n * unitsPerOne) ∣ unitsPerOne := by
  by_cases h0 : n = 0
  · subst h0; simp [spacing, twoTo_zero]
  · have hlog : (n * unitsPerOne).log2 - 52 ≤ unitExponent := by
      have : (n * unitsPerOne).log2 < 53 + unitExponent := by
        rw [log2_lt_iff (Nat.mul_ne_zero h0 (Nat.ne_of_gt unitsPerOne_pos)), twoTo_add,
          ← unitsPerOne_eq]
        exact Nat.mul_lt_mul_of_pos_right h unitsPerOne_pos
      omega
    rw [unitsPerOne_eq] at hlog ⊢
    exact twoTo_dvd_twoTo hlog

/-- A whole magnitude below 2^53 is not changed by rounding. -/
theorem round_whole (negative : Bool) {n : Nat} (h : n < twoTo 53) :
    round negative (n * unitsPerOne) 1 = finite negative (n * unitsPerOne) := by
  obtain ⟨k, hk⟩ := spacing_dvd h
  have hs : 0 < spacing (n * unitsPerOne) := twoTo_pos _
  have hlt : n * unitsPerOne < unitsLimit := by
    have h1 : n * unitsPerOne < twoTo 53 * unitsPerOne :=
      Nat.mul_lt_mul_of_pos_right h unitsPerOne_pos
    have h2 : twoTo 53 * unitsPerOne ≤ unitsLimit := by
      rw [unitsLimit_eq]
      exact Nat.mul_le_mul_right _ (twoTo_le_twoTo le_limitExponent)
    omega
  have hq : roundQuotient (n * unitsPerOne) (spacing (n * unitsPerOne)) *
      spacing (n * unitsPerOne) = n * unitsPerOne := by
    generalize hstep : spacing (n * unitsPerOne) = step at *
    rw [show n * unitsPerOne = (n * k) * step by rw [hk, Nat.mul_comm step k, Nat.mul_assoc]]
    rw [roundQuotient_mul _ _ hs]
  simp [round, hq, hlt]

theorem ofInt_eq {n : Int} (h : n.natAbs < twoTo 53) :
    ofInt n = finite (decide (n < 0)) (n.natAbs * unitsPerOne) := round_whole _ h

end Number

end EntityQuery
