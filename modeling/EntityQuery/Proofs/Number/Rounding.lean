import EntityQuery.Number.Basic
import Mathlib.Algebra.Order.Field.Basic
import Mathlib.Algebra.Order.Field.Rat
import Mathlib.Tactic.FieldSimp
import Mathlib.Tactic.Linarith

/-!
# Rounding to the nearest number

A magnitude is held with a significand of 53 binary digits (`Number.HeldAs`). Of those that can be
held, `Nearest q` is the one that is nearest to `q`, and of two that are equally near the one with
an even significand; there is only one (`Nearest.unique`). Rounding finds it (`nearest_unitsOf`).
-/

namespace EntityQuery

namespace Number

/-! ## Magnitudes that can be held -/

/-- The units are the significand `m` times two to the power of `e`. A significand has all its 53
binary digits unless the exponent is the least one. -/
structure HeldAs (units m e : Nat) : Prop where
  units_eq : units = m * twoTo e
  lt : m < twoTo 53
  normal : e = 0 ∨ twoTo 52 ≤ m

def Held (units : Nat) : Prop := ∃ m e, HeldAs units m e

/-- The significand is even. -/
def HeldEven (units : Nat) : Prop := ∃ m e, HeldAs units m e ∧ m % 2 = 0

/-- The magnitude, in units, that is nearest to `q`. -/
structure Nearest (q : ℚ) (units : Nat) : Prop where
  held : Held units
  nearest : ∀ other, Held other → |q - units| ≤ |q - other|
  tie : ∀ other, Held other → other ≠ units → |q - units| = |q - other| → HeldEven units

theorem twoTo_succ (n : Nat) : twoTo (n + 1) = 2 * twoTo n := by
  rw [twoTo_add, Nat.mul_comm]
  rfl

namespace HeldAs

variable {u v m n e f : Nat}

/-- A larger exponent holds a larger magnitude. -/
theorem lt_of_exponent_lt (hu : HeldAs u m e) (hv : HeldAs v n f) (h : e < f) : u < v := by
  have hn : twoTo 52 ≤ n := hv.normal.resolve_left (Nat.ne_of_gt (Nat.zero_lt_of_lt h))
  calc u = m * twoTo e := hu.units_eq
    _ < twoTo 53 * twoTo e := Nat.mul_lt_mul_of_pos_right hu.lt (twoTo_pos e)
    _ = twoTo 52 * twoTo (e + 1) := by rw [← twoTo_add, ← twoTo_add, Nat.add_comm e 1, ← Nat.add_assoc]
    _ ≤ n * twoTo f := Nat.mul_le_mul hn (twoTo_le_twoTo h)
    _ = v := hv.units_eq.symm

theorem unique (hm : HeldAs u m e) (hn : HeldAs u n f) : m = n := by
  rcases Nat.lt_trichotomy e f with h | rfl | h
  · exact absurd (hm.lt_of_exponent_lt hn h) (Nat.lt_irrefl u)
  · exact Nat.eq_of_mul_eq_mul_right (twoTo_pos e) (hm.units_eq.symm.trans hn.units_eq)
  · exact absurd (hn.lt_of_exponent_lt hm h) (Nat.lt_irrefl u)

/-- Above a magnitude with an even significand, the next one has an odd significand. -/
theorem succ (h : HeldAs u m e) (heven : m % 2 = 0) : HeldAs (u + twoTo e) (m + 1) e where
  units_eq := by rw [h.units_eq, Nat.succ_mul]
  lt := by
    have hlt := h.lt
    have h53 : twoTo 53 = 2 * twoTo 52 := twoTo_succ 52
    omega
  normal := h.normal.imp_right fun hle => Nat.le_succ_of_le hle

/-- No magnitude is between one and the next. -/
theorem add_le (hu : HeldAs u m e) (hv : HeldAs v n f) (h : u < v) : u + twoTo e ≤ v := by
  have hle : e ≤ f := Nat.not_lt.1 fun hlt => Nat.lt_asymm h (hv.lt_of_exponent_lt hu hlt)
  obtain ⟨k, hk⟩ := twoTo_dvd_twoTo hle
  have hmultiple : v = n * k * twoTo e := by
    rw [hv.units_eq, hk, Nat.mul_comm (twoTo e) k, Nat.mul_assoc]
  rw [hu.units_eq, hmultiple] at h ⊢
  rw [← Nat.succ_mul]
  exact Nat.mul_le_mul_right _ (Nat.lt_of_mul_lt_mul_right h)

end HeldAs

namespace Nearest

variable {q : ℚ} {u v : Nat}

/-- Of two nearest magnitudes the lower one would have an even significand, the one above it an odd
one, and so would the upper one, which is the next. -/
theorem not_below (hu : Nearest q u) (hv : Nearest q v) : ¬ u < v := by
  intro h
  have hsame : |q - u| = |q - v| := le_antisymm (hu.nearest v hv.held) (hv.nearest u hu.held)
  have hcast : (u : ℚ) < v := Nat.cast_lt.2 h
  have hmiddle : q - u = v - q := by
    rcases abs_eq_abs.1 hsame with heq | heq <;> linarith
  obtain ⟨m, e, hm, hm'⟩ := hu.tie v hv.held (Nat.ne_of_gt h) hsame
  obtain ⟨n, f, hn, hn'⟩ := hv.tie u hu.held (Nat.ne_of_lt h) hsame.symm
  have hnext := hm.succ hm'
  rcases Nat.lt_or_eq_of_le (hm.add_le hn h) with hlt | heq
  · have hbelow : ((u + twoTo e : Nat) : ℚ) < v := Nat.cast_lt.2 hlt
    have habove : (u : ℚ) < (u + twoTo e : Nat) :=
      Nat.cast_lt.2 (Nat.lt_add_of_pos_right (twoTo_pos e))
    have hfar : |q - (u + twoTo e : Nat)| < |q - u| := by
      rw [abs_of_pos (by linarith : 0 < q - u), abs_lt]
      constructor <;> linarith
    exact absurd (hu.nearest _ ⟨_, _, hnext⟩) (not_le.2 hfar)
  · rw [heq] at hnext
    have hodd := hnext.unique hn
    omega

theorem unique (hu : Nearest q u) (hv : Nearest q v) : u = v :=
  Nat.le_antisymm (Nat.not_lt.1 (hv.not_below hu)) (Nat.not_lt.1 (hu.not_below hv))

theorem zero (h0 : 0 ≤ q) (h : q < 1 / 2) : Nearest q 0 := by
  have hheld : HeldAs 0 0 0 := ⟨(Nat.zero_mul _).symm, twoTo_pos 53, .inl rfl⟩
  have hfar : ∀ other : Nat, other ≠ 0 → |q - (0 : Nat)| < |q - other| := by
    intro other hne
    have hone : (1 : ℚ) ≤ other := Nat.one_le_cast.2 (Nat.one_le_iff_ne_zero.2 hne)
    rw [Nat.cast_zero, sub_zero, abs_of_nonneg h0, abs_sub_comm, abs_of_pos (by linarith)]
    linarith
  refine ⟨⟨_, _, hheld⟩, fun other _ => ?_, fun other _ hne heq => absurd heq (hfar other hne).ne⟩
  by_cases hne : other = 0
  · rw [hne]
  · exact (hfar other hne).le

/-- What is nearest is not below a magnitude that is held and not above. -/
theorem le_of_held (hu : Nearest q u) (hv : Held v) (h : (v : ℚ) ≤ q) : v ≤ u := by
  refine Nat.not_lt.1 fun hlt => ?_
  have hcast : (u : ℚ) < v := Nat.cast_lt.2 hlt
  have hnear := hu.nearest v hv
  rw [abs_of_nonneg (sub_nonneg.2 h), abs_of_pos (by linarith)] at hnear
  linarith

end Nearest

/-! ## Rounded quotients -/

section Quotient

variable {num den : Nat}

/-- A quotient of whole numbers by its whole part and the rest. -/
theorem div_eq_floor_add (num : Nat) (hden : 0 < den) :
    (num / den : ℚ) = (num / den : Nat) + (num % den : Nat) / den := by
  have hpos : (0 : ℚ) < den := Nat.cast_pos.2 hden
  rw [div_eq_iff hpos.ne', add_mul, div_mul_cancel₀ _ hpos.ne']
  exact_mod_cast (Nat.div_add_mod' num den).symm

theorem abs_sub_floor (num : Nat) (hden : 0 < den) :
    |(num / den : ℚ) - (num / den : Nat)| = (num % den : Nat) / den := by
  rw [div_eq_floor_add num hden, add_sub_cancel_left,
    abs_of_nonneg (div_nonneg (Nat.cast_nonneg _) (Nat.cast_nonneg _))]

theorem abs_sub_floor_succ (num : Nat) (hden : 0 < den) :
    |(num / den : ℚ) - (num / den + 1 : Nat)| = 1 - (num % den : Nat) / den := by
  have hle : ((num % den : Nat) / den : ℚ) ≤ 1 :=
    (div_le_one (Nat.cast_pos.2 hden)).2 (Nat.cast_le.2 (Nat.mod_lt num hden).le)
  rw [div_eq_floor_add num hden, Nat.cast_add, Nat.cast_one, add_sub_add_left_eq_sub,
    abs_sub_comm, abs_of_nonneg (sub_nonneg.2 hle)]

/-- The rounded quotient is at most a half away, and even if it is a half away. -/
theorem abs_sub_roundQuotient (num : Nat) (hden : 0 < den) :
    |(num / den : ℚ) - roundQuotient num den| ≤ 1 / 2 ∧
      (|(num / den : ℚ) - roundQuotient num den| = 1 / 2 → roundQuotient num den % 2 = 0) := by
  have hpos : (0 : ℚ) < den := Nat.cast_pos.2 hden
  have htwice : (2 * ((num % den : Nat) / den) : ℚ) = (2 * (num % den) : Nat) / den := by
    rw [Nat.cast_mul, mul_div_assoc]
    rfl
  unfold roundQuotient
  split
  · rename_i h
    have hlt : (2 * ((num % den : Nat) / den) : ℚ) < 1 := by
      rw [htwice, div_lt_one hpos]
      exact Nat.cast_lt.2 (Nat.compare_eq_lt.1 h)
    rw [abs_sub_floor num hden]
    exact ⟨by linarith, fun heq => by linarith⟩
  · rename_i h
    have hlt : 1 < (2 * ((num % den : Nat) / den) : ℚ) := by
      rw [htwice, one_lt_div hpos]
      exact Nat.cast_lt.2 (Nat.compare_eq_gt.1 h)
    rw [abs_sub_floor_succ num hden]
    exact ⟨by linarith, fun heq => by linarith⟩
  · rename_i h
    have heq : (2 * ((num % den : Nat) / den) : ℚ) = 1 := by
      rw [htwice, div_eq_one_iff_eq hpos.ne']
      exact congrArg Nat.cast (Nat.compare_eq_eq.1 h)
    dsimp only
    split
    · rw [abs_sub_floor num hden]
      exact ⟨by linarith, fun _ => ‹_›⟩
    · rw [abs_sub_floor_succ num hden]
      exact ⟨by linarith, fun _ => by omega⟩

/-- No whole number is nearer than the rounded quotient. -/
theorem abs_sub_roundQuotient_le (num : Nat) (hden : 0 < den) (n : Nat) :
    |(num / den : ℚ) - roundQuotient num den| ≤ |(num / den : ℚ) - n| ∧
      (n ≠ roundQuotient num den →
        |(num / den : ℚ) - roundQuotient num den| = |(num / den : ℚ) - n| →
          roundQuotient num den % 2 = 0) := by
  obtain ⟨hhalf, heven⟩ := abs_sub_roundQuotient num hden
  generalize roundQuotient num den = r at hhalf heven
  by_cases hne : n = r
  · rw [hne]
    exact ⟨le_rfl, fun h => absurd rfl h⟩
  · have hapart : (1 : ℚ) ≤ |(n : ℚ) - r| := by
      have hint : (1 : ℤ) ≤ |(n : ℤ) - r| := Int.one_le_abs (sub_ne_zero.2 (by exact_mod_cast hne))
      exact_mod_cast hint
    have htriangle : |(n : ℚ) - r| ≤ |(num / den : ℚ) - n| + |(num / den : ℚ) - r| := by
      rw [abs_sub_comm ((num : ℚ) / den) n]
      exact abs_sub_le _ _ _
    exact ⟨by linarith, fun _ heq => heven (by linarith)⟩

end Quotient

/-! ## Rounding -/

section Rounding

variable {num den : Nat}

/-- The exponent with which the quotient is held. -/
def exponentOf (num den : Nat) : Nat := (num / den).log2 - 52

/-- The significand with which the quotient is held, or the one that would be next. -/
def significandOf (num den : Nat) : Nat :=
  roundQuotient num (den * twoTo (exponentOf num den))

/-- The units of the rounded quotient. -/
def unitsOf (num den : Nat) : Nat := significandOf num den * twoTo (exponentOf num den)

theorem round_eq (negative : Bool) (num den : Nat) :
    round negative num den =
      if unitsOf num den < unitsLimit then .finite negative (unitsOf num den)
      else .infinite negative := rfl

theorem twoTo_cast_pos (e : Nat) : (0 : ℚ) < twoTo e := Nat.cast_pos.2 (twoTo_pos e)

/-- The quotient in steps of its exponent is below the significands of 54 binary digits. -/
theorem scaled_lt (num : Nat) (hden : 0 < den) :
    (num / den / twoTo (exponentOf num den) : ℚ) < twoTo 53 := by
  have hfloor : num / den < twoTo 53 * twoTo (exponentOf num den) := by
    rw [← twoTo_add]
    by_cases h0 : num / den = 0
    · rw [h0]
      exact twoTo_pos _
    · rw [← log2_lt_iff h0, exponentOf]
      omega
  rw [div_lt_iff₀ (twoTo_cast_pos _), div_lt_iff₀ (Nat.cast_pos.2 hden)]
  exact_mod_cast (Nat.div_lt_iff_lt_mul hden).1 hfloor

/-- Unless the exponent is the least one, it is not below those of 53. -/
theorem le_scaled (hden : 0 < den) (h : exponentOf num den ≠ 0) :
    (twoTo 52 : ℚ) ≤ num / den / twoTo (exponentOf num den) := by
  have hfloor : twoTo 52 * twoTo (exponentOf num den) ≤ num / den := by
    have h0 : num / den ≠ 0 := by
      intro h0
      rw [exponentOf, h0] at h
      exact h rfl
    rw [← twoTo_add, ← Nat.not_lt, ← log2_lt_iff h0]
    unfold exponentOf at h ⊢
    omega
  rw [le_div_iff₀ (twoTo_cast_pos _), le_div_iff₀ (Nat.cast_pos.2 hden)]
  exact_mod_cast (Nat.le_div_iff_mul_le hden).1 hfloor

theorem step_pos (num : Nat) (hden : 0 < den) : 0 < den * twoTo (exponentOf num den) :=
  Nat.mul_pos hden (twoTo_pos _)

theorem scaled_eq (num den e : Nat) :
    (num / (den * twoTo e : Nat) : ℚ) = num / den / twoTo e := by
  rw [Nat.cast_mul, div_mul_eq_div_div]

theorem significandOf_le (num : Nat) (hden : 0 < den) : significandOf num den ≤ twoTo 53 := by
  obtain ⟨hhalf, -⟩ := abs_sub_roundQuotient num (step_pos num hden)
  have hlt := scaled_lt num hden
  rw [scaled_eq, ← significandOf, abs_le] at hhalf
  have hbound : (significandOf num den : ℚ) < (twoTo 53 + 1 : Nat) := by
    rw [Nat.cast_add, Nat.cast_one]
    linarith [hhalf.1]
  exact Nat.lt_succ_iff.1 (Nat.cast_lt.1 hbound)

theorem le_significandOf (hden : 0 < den) (h : exponentOf num den ≠ 0) :
    twoTo 52 ≤ significandOf num den := by
  obtain ⟨hhalf, -⟩ := abs_sub_roundQuotient num (step_pos num hden)
  have hle := le_scaled hden h
  rw [scaled_eq, ← significandOf, abs_le] at hhalf
  have hbound : (twoTo 52 : ℚ) < (significandOf num den + 1 : Nat) := by
    rw [Nat.cast_add, Nat.cast_one]
    linarith [hhalf.2]
  exact Nat.lt_succ_iff.1 (Nat.cast_lt.1 hbound)

/-- The next significand is held with the next exponent. -/
theorem heldAs_unitsOf (num : Nat) (hden : 0 < den) :
    HeldAs (unitsOf num den) (significandOf num den) (exponentOf num den) ∨
      significandOf num den = twoTo 53 ∧
        HeldAs (unitsOf num den) (twoTo 52) (exponentOf num den + 1) := by
  rcases Nat.lt_or_eq_of_le (significandOf_le num hden) with hlt | heq
  · refine .inl ⟨rfl, hlt, ?_⟩
    by_cases h : exponentOf num den = 0
    · exact .inl h
    · exact .inr (le_significandOf hden h)
  · refine .inr ⟨heq, ?_, ?_, .inr le_rfl⟩
    · rw [unitsOf, heq, ← twoTo_add, ← twoTo_add, Nat.add_comm _ 1, ← Nat.add_assoc]
    · rw [twoTo_succ 52]
      have hpos := twoTo_pos 52
      omega

theorem held_unitsOf (num : Nat) (hden : 0 < den) : Held (unitsOf num den) := by
  rcases heldAs_unitsOf num hden with h | ⟨-, h⟩
  · exact ⟨_, _, h⟩
  · exact ⟨_, _, h⟩

theorem heldEven_unitsOf (hden : 0 < den) (h : significandOf num den % 2 = 0) :
    HeldEven (unitsOf num den) := by
  rcases heldAs_unitsOf num hden with hheld | ⟨-, hheld⟩
  · exact ⟨_, _, hheld, h⟩
  · exact ⟨_, _, hheld, by rw [twoTo_succ 51, Nat.mul_mod_right]⟩

/-- Of the multiples of a step none is nearer. -/
theorem abs_sub_unitsOf_le_mul (num : Nat) (hden : 0 < den) (n : Nat) :
    |(num / den : ℚ) - unitsOf num den| ≤
        |(num / den : ℚ) - (n * twoTo (exponentOf num den) : Nat)| ∧
      (n ≠ significandOf num den →
        |(num / den : ℚ) - unitsOf num den| =
          |(num / den : ℚ) - (n * twoTo (exponentOf num den) : Nat)| →
        significandOf num den % 2 = 0) := by
  have hpos := twoTo_cast_pos (exponentOf num den)
  have hscale : ∀ k : Nat, |(num / den : ℚ) - (k * twoTo (exponentOf num den) : Nat)| =
      |(num / den / twoTo (exponentOf num den) : ℚ) - k| * twoTo (exponentOf num den) := by
    intro k
    rw [← abs_of_pos hpos, ← abs_mul, abs_of_pos hpos, sub_mul, div_mul_cancel₀ _ hpos.ne',
      Nat.cast_mul]
  obtain ⟨hle, htie⟩ := abs_sub_roundQuotient_le num (step_pos num hden) n
  rw [scaled_eq, ← significandOf] at hle htie
  rw [unitsOf, hscale, hscale]
  exact ⟨mul_le_mul_of_nonneg_right hle hpos.le,
    fun hne heq => htie hne (mul_right_cancel₀ hpos.ne' heq)⟩

theorem abs_sub_unitsOf_le (num : Nat) (hden : 0 < den) {other m e : Nat}
    (h : HeldAs other m e) :
    |(num / den : ℚ) - unitsOf num den| ≤ |(num / den : ℚ) - other| ∧
      (other ≠ unitsOf num den →
        |(num / den : ℚ) - unitsOf num den| = |(num / den : ℚ) - other| →
          significandOf num den % 2 = 0) := by
  by_cases hle : exponentOf num den ≤ e
  · obtain ⟨k, hk⟩ := twoTo_dvd_twoTo hle
    have hother : other = m * k * twoTo (exponentOf num den) := by
      rw [h.units_eq, hk, Nat.mul_comm (twoTo (exponentOf num den)) k, Nat.mul_assoc]
    obtain ⟨hle, htie⟩ := abs_sub_unitsOf_le_mul num hden (m * k)
    rw [hother]
    exact ⟨hle, fun hne => htie fun heq => hne (by rw [heq, unitsOf])⟩
  · -- What is held with a smaller exponent is below the least multiple with all digits.
    have hlt := Nat.not_le.1 hle
    have hleast : HeldAs (twoTo 52 * twoTo (exponentOf num den)) (twoTo 52)
        (exponentOf num den) := by
      refine ⟨rfl, ?_, .inr le_rfl⟩
      rw [twoTo_succ 52]
      have hpos := twoTo_pos 52
      omega
    have hbelow : (other : ℚ) < (twoTo 52 * twoTo (exponentOf num den) : Nat) :=
      Nat.cast_lt.2 (h.lt_of_exponent_lt hleast hlt)
    have hscaled := le_scaled hden (Nat.ne_of_gt (Nat.zero_lt_of_lt hlt))
    rw [le_div_iff₀ (twoTo_cast_pos _), ← Nat.cast_mul] at hscaled
    obtain ⟨hnear, -⟩ := abs_sub_unitsOf_le_mul num hden (twoTo 52)
    rw [abs_of_nonneg (sub_nonneg.2 hscaled)] at hnear
    have hfar : |(num / den : ℚ) - unitsOf num den| < |(num / den : ℚ) - other| := by
      rw [abs_of_pos (a := (num / den : ℚ) - other) (by linarith)]
      linarith
    exact ⟨hfar.le, fun _ heq => absurd heq hfar.ne⟩

theorem nearest_unitsOf (num : Nat) (hden : 0 < den) : Nearest (num / den) (unitsOf num den) where
  held := held_unitsOf num hden
  nearest := by
    rintro other ⟨m, e, h⟩
    exact (abs_sub_unitsOf_le num hden h).1
  tie := by
    rintro other ⟨m, e, h⟩ hne heq
    exact heldEven_unitsOf hden ((abs_sub_unitsOf_le num hden h).2 hne heq)

end Rounding

end Number

end EntityQuery
