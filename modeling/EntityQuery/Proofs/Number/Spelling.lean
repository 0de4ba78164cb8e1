import EntityQuery.Number.Decimal
import EntityQuery.Proofs.Number.Rounding
import EntityQuery.Proofs.Time.Numbers
import Mathlib.Algebra.Order.Field.Power
import Mathlib.Tactic.Ring

/-!
# Decimal numbers

What a decimal number is (`DecimalText`) and which number it rounds to (`Decimal.RoundsTo`). A
finite number is read from the decimal numbers that round to it and from no other text
(`Number.read?_eq_some_iff`).
-/

namespace EntityQuery

/-! ## Texts -/

inductive SignText : List Char → Bool → Prop where
  | none : SignText [] false
  | plus : SignText ['+'] false
  | minus : SignText ['-'] true

/-- A point with the digits behind it, or neither. -/
inductive PointText : List Char → List Char → Prop where
  | none : PointText [] []
  | point (fraction : List Char) : PointText ('.' :: fraction) fraction

inductive ExponentText : List Char → Int → Prop where
  | none : ExponentText [] 0
  | power {c : Char} {s ds : List Char} {negative : Bool} : c = 'e' ∨ c = 'E' →
      SignText s negative → ds ≠ [] → (∀ d ∈ ds, d.isDigit = true) →
      ExponentText (c :: (s ++ ds))
        (if negative then -(Decimal.digitsValue ds) else Decimal.digitsValue ds)

/-- A sign, digits with a point among them or at an end, and a power of ten. The sign, the point and
the power may be missing, but not all digits. -/
inductive DecimalText : List Char → Decimal → Prop where
  | mk {s whole p fraction x : List Char} {negative : Bool} {e : Int} : SignText s negative →
      (∀ d ∈ whole, d.isDigit = true) → PointText p fraction → (∀ d ∈ fraction, d.isDigit = true) →
      ¬ (whole = [] ∧ fraction = []) → ExponentText x e →
      DecimalText (s ++ (whole ++ (p ++ x)))
        ⟨negative, Decimal.digitsValue (whole ++ fraction), e - fraction.length⟩

namespace Decimal

/-! ## Reading -/

theorem splitSign_eq {cs rest : List Char} {negative : Bool}
    (h : splitSign cs = (negative, rest)) : ∃ s, SignText s negative ∧ cs = s ++ rest := by
  unfold splitSign at h
  split at h
  all_goals obtain ⟨rfl, rfl⟩ := Prod.mk.inj h
  · exact ⟨_, .minus, rfl⟩
  · exact ⟨_, .plus, rfl⟩
  · exact ⟨_, .none, rfl⟩

theorem splitSign_append {s rest : List Char} {negative : Bool} (h : SignText s negative)
    (hrest : rest.head? ≠ some '-' ∧ rest.head? ≠ some '+') :
    splitSign (s ++ rest) = (negative, rest) := by
  cases h with
  | none =>
    rw [List.nil_append]
    unfold splitSign
    split
    · exact absurd rfl hrest.1
    · exact absurd rfl hrest.2
    · rfl
  | plus | minus => rfl

/-- Digits do not begin with a sign. -/
theorem ne_sign_of_isDigit {ds : List Char} (hne : ds ≠ []) (h : ∀ d ∈ ds, d.isDigit = true) :
    ds.head? ≠ some '-' ∧ ds.head? ≠ some '+' := by
  obtain ⟨d, ds, rfl⟩ := List.exists_cons_of_ne_nil hne
  have hd := h d List.mem_cons_self
  constructor <;> rintro ⟨⟩ <;> cases hd

theorem splitFraction_eq {cs fraction rest : List Char}
    (h : splitFraction cs = (fraction, rest)) :
    ∃ p, PointText p fraction ∧ (∀ d ∈ fraction, d.isDigit = true) ∧ cs = p ++ rest := by
  unfold splitFraction at h
  split at h
  · rename_i cs
    obtain ⟨rfl, rfl⟩ := Prod.mk.inj h
    refine ⟨_, .point _, List.all_eq_true.1 List.all_takeWhile, ?_⟩
    rw [List.cons_append, List.takeWhile_append_dropWhile]
  · obtain ⟨rfl, rfl⟩ := Prod.mk.inj h
    exact ⟨[], .none, List.forall_mem_nil _, rfl⟩

/-- What follows the digits of a decimal number. -/
def Stops (rest : List Char) : Prop := ∀ c ∈ rest.head?, c.isDigit = false ∧ c ≠ '.'

theorem splitFraction_append {p fraction rest : List Char} (h : PointText p fraction)
    (hd : ∀ d ∈ fraction, d.isDigit = true) (hrest : Stops rest) :
    splitFraction (p ++ rest) = (fraction, rest) := by
  cases h with
  | none =>
    rw [List.nil_append]
    unfold splitFraction
    split
    · exact absurd rfl (hrest '.' rfl).2
    · rfl
  | point =>
    obtain ⟨htake, hdrop⟩ := Reader.takeWhile_append hd fun c hc =>
      Bool.eq_false_iff.1 (hrest c hc).1
    rw [List.cons_append, splitFraction, htake, hdrop]

theorem readExponent?_eq_some {cs : List Char} {e : Int} :
    readExponent? cs = some e ↔ ExponentText cs e := by
  constructor
  · intro h
    cases cs with
    | nil =>
      obtain rfl := Option.some.inj h
      exact .none
    | cons c cs =>
      by_cases hc : c = 'e' ∨ c = 'E'
      · cases hsplit : splitSign cs with
        | mk negative ds =>
          obtain ⟨s, hs, rfl⟩ := splitSign_eq hsplit
          rw [readExponent?, if_pos hc, hsplit] at h
          obtain ⟨⟨hne, hds⟩, h⟩ := Option.ite_none_right_eq_some.1 h
          obtain rfl := Option.some.inj h
          exact .power hc hs hne (List.all_eq_true.1 hds)
      · rw [readExponent?, if_neg hc] at h
        cases h
  · intro h
    cases h with
    | none => rfl
    | @power c s ds negative hc hs hne hds =>
      have hsign := splitSign_append hs (ne_sign_of_isDigit hne hds)
      have hall : ds ≠ [] ∧ ds.all Char.isDigit = true := ⟨hne, List.all_eq_true.2 hds⟩
      rw [readExponent?, if_pos hc, hsign]
      exact if_pos hall

theorem ExponentText.stops {x : List Char} {e : Int} (h : ExponentText x e) : Stops x := by
  intro c hc
  cases h with
  | none => cases hc
  | power hpower =>
    cases hc
    rcases hpower with rfl | rfl <;> exact ⟨rfl, by decide⟩

/-- Nothing is left of digits behind the digits of a decimal number. -/
theorem PointText.head_append {p fraction x : List Char} (h : PointText p fraction)
    (hx : Stops x) : ∀ c ∈ (p ++ x).head?, ¬ c.isDigit = true := by
  intro c hc
  cases h with
  | none => exact Bool.eq_false_iff.1 (hx c hc).1
  | point =>
    cases hc
    decide

/-- A decimal number without a sign begins with a digit or a point. -/
theorem ne_sign_of_digits {whole p fraction : List Char} (hwhole : ∀ d ∈ whole, d.isDigit = true)
    (hp : PointText p fraction) (hdigits : ¬ (whole = [] ∧ fraction = [])) (x : List Char) :
    (whole ++ (p ++ x)).head? ≠ some '-' ∧ (whole ++ (p ++ x)).head? ≠ some '+' := by
  by_cases hne : whole = []
  · cases hp with
    | none => exact absurd ⟨hne, rfl⟩ hdigits
    | point =>
      rw [hne]
      constructor <;> rintro ⟨⟩
  · rw [List.head?_append_of_ne_nil _ hne]
    exact ne_sign_of_isDigit hne hwhole

theorem readChars?_eq_some {cs : List Char} {d : Decimal} :
    readChars? cs = some d ↔ DecimalText cs d := by
  constructor
  · intro h
    unfold readChars? at h
    cases hsign : splitSign cs with
    | mk negative rest =>
      cases hfraction : splitFraction (rest.dropWhile Char.isDigit) with
      | mk fraction x =>
        rw [hsign] at h
        simp only [hfraction] at h
        obtain ⟨hdigits, h⟩ := Option.ite_none_left_eq_some.1 h
        obtain ⟨e, he, rfl⟩ := Option.map_eq_some_iff.1 h
        obtain ⟨s, hs, rfl⟩ := splitSign_eq hsign
        obtain ⟨p, hp, hpdigits, hback⟩ := splitFraction_eq hfraction
        have hrest : rest = rest.takeWhile Char.isDigit ++ (p ++ x) := by
          rw [← hback, List.takeWhile_append_dropWhile]
        have htext := DecimalText.mk hs (List.all_eq_true.1 List.all_takeWhile) hp hpdigits hdigits
          (readExponent?_eq_some.1 he)
        rwa [← hrest] at htext
  · intro h
    cases h with
    | @mk s whole p fraction x negative e hs hwhole hp hfraction hdigits hx =>
      have hstops := ExponentText.stops hx
      have hsign := ne_sign_of_digits hwhole hp hdigits x
      obtain ⟨htake, hdrop⟩ := Reader.takeWhile_append hwhole (PointText.head_append hp hstops)
      unfold readChars?
      rw [splitSign_append hs hsign]
      simp only [htake, hdrop, splitFraction_append hp hfraction hstops]
      rw [if_neg hdigits, readExponent?_eq_some.2 hx, Option.map_some]

/-! ## The number of a decimal -/

/-- The value without its sign. -/
def magnitude (d : Decimal) : ℚ := d.digits * 10 ^ d.exponent

/-- The number is nearest to the decimal, and infinite if what is nearest is too large. -/
inductive RoundsTo (d : Decimal) : Number → Prop where
  | finite {units : Nat} : Number.Nearest (d.magnitude * Number.unitsPerOne) units →
      units < Number.unitsLimit → RoundsTo d (.finite d.negative units)
  | infinite {units : Nat} : Number.Nearest (d.magnitude * Number.unitsPerOne) units →
      Number.unitsLimit ≤ units → RoundsTo d (.infinite d.negative)

theorem RoundsTo.unique {d : Decimal} {x y : Number} (hx : d.RoundsTo x) (hy : d.RoundsTo y) :
    x = y := by
  cases hx with
  | finite hu hlt =>
    cases hy with
    | finite hv => rw [hu.unique hv]
    | infinite hv hle =>
      rw [hu.unique hv] at hlt
      exact absurd hle (Nat.not_le.2 hlt)
  | infinite hu hle =>
    cases hy with
    | finite hv hlt =>
      rw [hv.unique hu] at hlt
      exact absurd hle (Nat.not_le.2 hlt)
    | infinite => rfl

theorem tenTo_cast (n : Nat) : (tenTo n : ℚ) = 10 ^ (n : Int) := by
  have hpow : ((Nat.pow 10 n : Nat) : ℚ) = 10 ^ n := by exact_mod_cast Nat.cast_pow 10 n
  rw [tenTo, hpow, zpow_natCast]

/-- A power of ten as a quotient of whole numbers. -/
theorem zpow_eq_div (e : Int) : (10 : ℚ) ^ e = tenTo e.toNat / tenTo (-e).toNat := by
  rw [tenTo_cast, tenTo_cast, ← zpow_sub₀ (by norm_num)]
  congr 1
  omega

/-- The magnitude in units as a quotient of whole numbers. -/
theorem magnitude_eq (d : Decimal) :
    d.magnitude * Number.unitsPerOne =
      (d.digits * tenTo d.exponent.toNat * Number.unitsPerOne : Nat) /
        (tenTo (-d.exponent).toNat : Nat) := by
  rw [magnitude, zpow_eq_div, Nat.cast_mul, Nat.cast_mul]
  ring

theorem lt_tenTo_digitCount (n : Nat) : n < tenTo (digitCount n) := by
  unfold digitCount
  split
  · rename_i h
    rw [h]
    decide
  · exact (Nat.length_toDigits_le_iff (by decide) Nat.length_toDigits_pos).1 le_rfl

theorem tenTo_digitCount_le {n : Nat} (h : n ≠ 0) : tenTo (digitCount n - 1) ≤ n := by
  rw [digitCount, if_neg h]
  by_cases hone : (Nat.toDigits 10 n).length - 1 = 0
  · rw [hone]
    exact Nat.one_le_iff_ne_zero.2 h
  · refine Nat.not_lt.1 fun hlt => ?_
    have hle := (Nat.length_toDigits_le_iff (by decide) (Nat.pos_of_ne_zero hone)).2 hlt
    omega

theorem tenTo_le_tenTo {m n : Nat} (h : m ≤ n) : tenTo m ≤ tenTo n :=
  Nat.pow_le_pow_right (by decide) h

theorem tenTo_succ (n : Nat) : tenTo (n + 1) = 10 * tenTo n := Nat.pow_succ'

theorem twoTo_mul_le {a b : Nat} (h : twoTo a ≤ tenTo b) (k : Nat) :
    twoTo (a * k) ≤ tenTo (b * k) :=
  calc twoTo (a * k) = Nat.pow (twoTo a) k := Nat.pow_mul 2 a k
    _ ≤ Nat.pow (tenTo b) k := Nat.pow_le_pow_left h k
    _ = tenTo (b * k) := (Nat.pow_mul 10 b k).symm

theorem unitsPerOne_le : Number.unitsPerOne * 2 ≤ tenTo 331 := by
  have hexponent : Number.unitExponent + 1 = 43 * 25 := by
    unfold Number.unitExponent
    rfl
  have hpower : Number.unitsPerOne * 2 = twoTo (43 * 25) := by
    rw [← hexponent, Number.twoTo_succ, Number.unitsPerOne_eq, Nat.mul_comm]
  rw [hpower]
  exact (twoTo_mul_le (b := 13) (by decide) 25).trans (tenTo_le_tenTo (by decide))

theorem unitsLimit_le : Number.unitsLimit ≤ tenTo 310 * Number.unitsPerOne := by
  have hexponent : Number.limitExponent = 93 * 11 + 1 := by
    unfold Number.limitExponent
    rfl
  have hten : 2 * tenTo (28 * 11) ≤ tenTo (28 * 11 + 1) :=
    (Nat.mul_le_mul_right _ (by decide : 2 ≤ 10)).trans (tenTo_succ _).ge
  rw [Number.unitsLimit_eq, hexponent, Number.twoTo_succ]
  refine Nat.mul_le_mul_right _ ?_
  calc 2 * twoTo (93 * 11) ≤ 2 * tenTo (28 * 11) :=
        Nat.mul_le_mul_left 2 (twoTo_mul_le (by decide) 11)
    _ ≤ tenTo (28 * 11 + 1) := hten
    _ ≤ tenTo 310 := tenTo_le_tenTo (by decide)

theorem held_unitsLimit : Number.Held Number.unitsLimit := by
  have hexponent : Number.limitExponent + Number.unitExponent = 52 + 2046 := by
    unfold Number.limitExponent Number.unitExponent
    rfl
  refine ⟨twoTo 52, 2046, ?_, by decide, .inr le_rfl⟩
  rw [← twoTo_add, ← hexponent]
  unfold Number.unitsLimit
  rfl

theorem magnitude_nonneg (d : Decimal) : 0 ≤ d.magnitude * Number.unitsPerOne :=
  mul_nonneg (mul_nonneg (Nat.cast_nonneg _) (zpow_nonneg (by norm_num) _)) (Nat.cast_nonneg _)

/-- A decimal of such an exponent is less than half a unit. -/
theorem magnitude_lt {d : Decimal} (h : d.exponent + digitCount d.digits < -330) :
    d.magnitude * Number.unitsPerOne < 1 / 2 := by
  have hten : (0 : ℚ) < 10 := by norm_num
  have hdigits : (d.digits : ℚ) < 10 ^ (digitCount d.digits : Int) := by
    rw [← tenTo_cast]
    exact Nat.cast_lt.2 (lt_tenTo_digitCount d.digits)
  have hunits : (Number.unitsPerOne * 2 : ℚ) ≤ 10 ^ (331 : Int) := by
    rw [← Nat.cast_ofNat, ← Nat.cast_mul]
    exact (Nat.cast_le.2 unitsPerOne_le).trans (tenTo_cast 331).le
  have hpos : (0 : ℚ) < Number.unitsPerOne := Nat.cast_pos.2 Number.unitsPerOne_pos
  have hmagnitude : d.magnitude < 10 ^ (-331 : Int) := by
    calc d.magnitude < 10 ^ (digitCount d.digits : Int) * 10 ^ d.exponent :=
          mul_lt_mul_of_pos_right hdigits (zpow_pos hten _)
      _ = 10 ^ ((digitCount d.digits : Int) + d.exponent) := (zpow_add₀ hten.ne' _ _).symm
      _ ≤ 10 ^ (-331 : Int) := zpow_le_zpow_right₀ (by norm_num) (by omega)
  calc d.magnitude * Number.unitsPerOne < 10 ^ (-331 : Int) * Number.unitsPerOne :=
        mul_lt_mul_of_pos_right hmagnitude hpos
    _ = 10 ^ (-331 : Int) * (Number.unitsPerOne * 2) / 2 := by ring
    _ ≤ 10 ^ (-331 : Int) * 10 ^ (331 : Int) / 2 := by gcongr
    _ = 1 / 2 := by rw [← zpow_add₀ hten.ne']; norm_num

/-- A decimal of such an exponent is beyond what is held as finite. -/
theorem unitsLimit_le_magnitude {d : Decimal} (h0 : d.digits ≠ 0)
    (h : 310 < d.exponent + digitCount d.digits) :
    (Number.unitsLimit : ℚ) ≤ d.magnitude * Number.unitsPerOne := by
  have hten : (0 : ℚ) < 10 := by norm_num
  have hdigits : (10 : ℚ) ^ ((digitCount d.digits - 1 : Nat) : Int) ≤ d.digits := by
    rw [← tenTo_cast]
    exact Nat.cast_le.2 (tenTo_digitCount_le h0)
  have hlimit : (Number.unitsLimit : ℚ) ≤ 10 ^ (310 : Int) * Number.unitsPerOne := by
    have hcast : ((tenTo 310 : Nat) : ℚ) = 10 ^ (310 : Int) := tenTo_cast 310
    rw [← hcast, ← Nat.cast_mul]
    exact Nat.cast_le.2 unitsLimit_le
  have hmagnitude : 10 ^ (310 : Int) ≤ d.magnitude := by
    calc (10 : ℚ) ^ (310 : Int) ≤ 10 ^ (((digitCount d.digits - 1 : Nat) : Int) + d.exponent) :=
          zpow_le_zpow_right₀ (by norm_num) (by omega)
      _ = 10 ^ ((digitCount d.digits - 1 : Nat) : Int) * 10 ^ d.exponent :=
          zpow_add₀ hten.ne' _ _
      _ ≤ d.digits * 10 ^ d.exponent :=
          mul_le_mul_of_nonneg_right hdigits (zpow_pos hten _).le
  exact hlimit.trans (mul_le_mul_of_nonneg_right hmagnitude (Nat.cast_nonneg _))

/-- Every decimal is taken to the number that it rounds to. -/
theorem roundsTo_toNumber (d : Decimal) : d.RoundsTo d.toNumber := by
  have hden : 0 < tenTo (-d.exponent).toNat := Nat.pow_pos (by decide)
  have hnearest := Number.nearest_unitsOf
    (d.digits * tenTo d.exponent.toNat * Number.unitsPerOne) hden
  rw [← magnitude_eq] at hnearest
  unfold toNumber
  dsimp only
  split
  · rename_i h
    have hsmall : d.magnitude * Number.unitsPerOne < 1 / 2 := by
      rcases h with h0 | htiny
      · rw [magnitude, h0]
        norm_num
      · exact magnitude_lt htiny
    refine .finite (.zero d.magnitude_nonneg hsmall) ?_
    rw [Number.unitsLimit_eq]
    exact Nat.mul_pos (twoTo_pos _) Number.unitsPerOne_pos
  · rename_i h
    split
    · rename_i hlarge
      have hlimit := unitsLimit_le_magnitude (fun h0 => h (.inl h0)) hlarge
      exact .infinite hnearest (hnearest.le_of_held held_unitsLimit hlimit)
    · rw [Number.round_eq]
      split
      · exact .finite hnearest ‹_›
      · exact .infinite hnearest (Nat.not_lt.1 ‹_›)

end Decimal

theorem DecimalText.unique {cs : List Char} {d d' : Decimal} (h : DecimalText cs d)
    (h' : DecimalText cs d') : d = d' :=
  Option.some.inj ((Decimal.readChars?_eq_some.2 h).symm.trans (Decimal.readChars?_eq_some.2 h'))

/-! ## Finite numbers -/

namespace Number

theorem read?_of_decimal {s : String} {d : Decimal} (h : DecimalText s.toList d) :
    read? s = some d.toNumber := by
  have hread : Decimal.read? s = some d := Decimal.readChars?_eq_some.2 h
  rw [read?, hread]

theorem isFinite_readWord? {s : String} {x : Number} (h : readWord? s = some x) :
    x.isFinite = false := by
  unfold readWord? at h
  dsimp only at h
  split at h
  · obtain rfl := Option.some.inj h
    rfl
  split at h
  · obtain rfl := Option.some.inj h
    rfl
  · cases h

/-- The texts of a finite number are the decimal numbers that round to it. -/
theorem read?_eq_some_iff {s : String} {x : Number} (hx : x.isFinite = true) :
    read? s = some x ↔ ∃ d, DecimalText s.toList d ∧ d.RoundsTo x := by
  constructor
  · intro h
    cases hd : Decimal.read? s with
    | some d =>
      have htext : DecimalText s.toList d := Decimal.readChars?_eq_some.1 hd
      rw [read?_of_decimal htext] at h
      exact ⟨d, htext, Option.some.inj h ▸ d.roundsTo_toNumber⟩
    | none =>
      rw [read?, hd] at h
      rw [isFinite_readWord? h] at hx
      cases hx
  · rintro ⟨d, htext, hd⟩
    rw [read?_of_decimal htext, d.roundsTo_toNumber.unique hd]

end Number

end EntityQuery
