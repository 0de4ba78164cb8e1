import EntityQuery.Proofs.RoundTrip.Guid
import EntityQuery.Proofs.RoundTrip.Instant
import EntityQuery.Value

/-!
# Values read back from documents

Numbers that are finite and instants whose year is written without a sign are `Value.InRange`.
`ofDocument_toDocument_of_inRange` says what is read back of them: a negative zero loses its sign,
which no order sees (the lemmas on `dropZeroSign`), and a leap second that does not end its minute
becomes the next second, which an order does see. What documents hold without that loss is
`Value.Storable` (`stored_lossless_iff`).
-/

namespace EntityQuery

/-- The year is written with four digits and no sign. -/
def Instant.InEra (i : Instant) : Prop := 0 ≤ i.date.year ∧ i.date.year ≤ 9999

instance (i : Instant) : Decidable i.InEra := by unfold Instant.InEra; infer_instance

namespace Number

/-- The number with both zeros made one. -/
def dropZeroSign : Number → Number
  | finite _ 0 => finite false 0
  | x => x

theorem signedUnits_zero (negative : Bool) : signedUnits negative 0 = 0 := by
  cases negative <;> rfl

theorem natAbs_signedUnits (negative : Bool) (n : Nat) : (signedUnits negative n).natAbs = n := by
  cases negative
  · rfl
  · exact Int.natAbs_neg _

/-- Only a negated count that is not zero is below zero. -/
theorem signedUnits_neg (negative : Bool) {n : Nat} (h : 0 < n) :
    decide (signedUnits negative n < 0) = negative := by
  cases negative
  · exact decide_eq_false (Int.not_lt.2 (Int.natCast_nonneg n))
  · exact decide_eq_true (Int.neg_neg_of_pos (Int.natCast_pos.2 h))

theorem compare_dropZeroSign (x y : Number) :
    x.dropZeroSign.compare y.dropZeroSign = x.compare y := by
  cases x with
  | finite s u =>
    cases y with
    | finite t v => cases u <;> cases v <;> simp [dropZeroSign, compare, signedUnits_zero]
    | infinite t => cases u <;> rfl
    | nan => cases u <;> rfl
  | infinite s =>
    cases y with
    | finite t v => cases v <;> rfl
    | infinite t => rfl
    | nan => rfl
  | nan => cases y <;> rfl

/-- The integer that a whole number is written as is read back as the number. -/
theorem ofInt_whole? {x : Number} {n : Int} (h : x.whole? = some n) :
    ofInt n = x.dropZeroSign := by
  cases x with
  | finite s u =>
    simp only [whole?] at h
    split at h
    · rename_i hu
      obtain ⟨hmod, hlt⟩ := hu
      cases h
      have habs := natAbs_signedUnits s (u / unitsPerOne)
      have hback : u / unitsPerOne * unitsPerOne = u :=
        Nat.div_mul_cancel (Nat.dvd_of_mod_eq_zero hmod)
      rw [ofInt_eq (by rw [habs]; exact hlt), habs, hback]
      cases u with
      | zero => simp [signedUnits_zero, dropZeroSign]
      | succ u =>
        have hpos : 0 < (u + 1) / unitsPerOne := by
          rcases Nat.eq_zero_or_pos ((u + 1) / unitsPerOne) with h0 | hpos
          · rw [h0, Nat.zero_mul] at hback
            omega
          · exact hpos
        rw [signedUnits_neg s hpos]
        rfl
    · cases h
  | infinite s => cases h
  | nan => cases h

theorem dropZeroSign_of_ne {x : Number} (h : x ≠ finite true 0) : x.dropZeroSign = x := by
  cases x with
  | finite s u =>
    cases u with
    | zero =>
      cases s with
      | false => rfl
      | true => exact absurd rfl h
    | succ u => rfl
  | infinite s => rfl
  | nan => rfl

theorem dropZeroSign_of_not_whole {x : Number} (h : x.whole? = none) : x.dropZeroSign = x := by
  refine dropZeroSign_of_ne fun e => ?_
  subst e
  simp [whole?, twoTo_pos] at h

end Number

namespace Value

/-- The values that are read back from documents as something of their kind. -/
def InRange : Value → Prop
  | number x => x.isFinite = true
  | dateTime i => i.InEra
  | _ => True

instance : (v : Value) → Decidable v.InRange
  | number x => inferInstanceAs (Decidable (x.isFinite = true))
  | dateTime i => inferInstanceAs (Decidable i.InEra)
  | null | string _ | boolean _ | guid _ => inferInstanceAs (Decidable True)

def settled : Value → Value
  | dateTime i => dateTime i.settled
  | v => v

/-- The values that documents hold without loss. -/
def Storable : Value → Prop
  | dateTime i => i.InEra ∧ i.IsRegular
  | v => v.InRange

instance : (v : Value) → Decidable v.Storable
  | dateTime i => inferInstanceAs (Decidable (i.InEra ∧ i.IsRegular))
  | number x => inferInstanceAs (Decidable (x.isFinite = true))
  | null | string _ | boolean _ | guid _ => inferInstanceAs (Decidable True)

theorem Storable.inRange {v : Value} (h : v.Storable) : v.InRange := by
  cases v with
  | dateTime i => exact h.1
  | _ => exact h

theorem Storable.settled {v : Value} (h : v.Storable) : v.settled = v := by
  cases v with
  | dateTime i => exact congrArg dateTime (Instant.settled_of_isRegular h.2)
  | _ => rfl

theorem InRange.storable {v : Value} (h : v.InRange) (hsettled : v.settled = v) : v.Storable := by
  cases v with
  | dateTime i => exact ⟨h, Instant.settled_eq_iff.1 (dateTime.inj hsettled)⟩
  | _ => exact h

theorem storable_settled {v : Value} (h : v.InRange) : v.settled.Storable := by
  cases v with
  | dateTime i => exact ⟨h, i.isRegular_settled⟩
  | _ => exact h

/-- A value and the settled one have one document. -/
theorem toDocument_settled (v : Value) : v.settled.toDocument = v.toDocument := by
  cases v with
  | dateTime i => rw [Value.settled, toDocument, toDocument, Instant.text_settled]
  | _ => rfl

def dropZeroSign : Value → Value
  | number x => number x.dropZeroSign
  | v => v

theorem ofDocument_numberToJson {x : Number} (h : x.isFinite = true) :
    ofDocument (numberToJson x) = number x.dropZeroSign := by
  unfold numberToJson
  split
  · rename_i n hn
    simp only [ofDocument, Number.ofInt_whole? hn]
  · rename_i hn
    simp only [if_pos h, ofDocument, Number.dropZeroSign_of_not_whole hn]

/-- What is read back is the settled value, but for the sign of zero. -/
theorem ofDocument_toDocument_of_inRange {v : Value} (h : v.InRange) :
    ofDocument v.toDocument = v.settled.dropZeroSign := by
  cases v with
  | null => rfl
  | string s => rfl
  | number x => exact ofDocument_numberToJson h
  | boolean b => rfl
  | dateTime i =>
    have hread : Instant.read? i.text = some i.settled := Instant.read?_text h
    simp only [toDocument, ofDocument, hread]
    rfl
  | guid g =>
    simp only [toDocument, ofDocument, Guid.read?_text]
    rfl

theorem ofDocument_toDocument {v : Value} (h : v.Storable) :
    ofDocument v.toDocument = v.dropZeroSign := by
  rw [ofDocument_toDocument_of_inRange h.inRange, h.settled]

/-! ## The sign of zero is not seen -/

@[simp] theorem isNull_dropZeroSign (v : Value) : v.dropZeroSign.isNull = v.isNull := by
  cases v <;> rfl

@[simp] theorem compare_dropZeroSign (v w : Value) :
    v.dropZeroSign.compare w.dropZeroSign = v.compare w := by
  cases v with
  | number x =>
    cases w with
    | number y => exact Number.compare_dropZeroSign x y
    | _ => rfl
  | _ => cases w <;> rfl

@[simp] theorem sortCompare_dropZeroSign (v w : Value) :
    v.dropZeroSign.sortCompare w.dropZeroSign = v.sortCompare w := by
  cases v with
  | number x =>
    cases w with
    | number y => exact congrArg (·.getD .eq) (Number.compare_dropZeroSign x y)
    | _ => rfl
  | _ => cases w <;> rfl

theorem dropZeroSign_of_ne {v : Value} (h : v ≠ number (.finite true 0)) :
    v.dropZeroSign = v := by
  cases v with
  | number x => exact congrArg number (Number.dropZeroSign_of_ne fun e => h (congrArg number e))
  | _ => rfl

theorem dropZeroSign_eq_iff {v : Value} : v.dropZeroSign = v ↔ v ≠ number (.finite true 0) := by
  refine ⟨fun h hzero => ?_, dropZeroSign_of_ne⟩
  rw [hzero] at h
  cases h

/-! ## What is lost -/

/-- Settling and dropping the sign of zero change values of different kinds. -/
theorem settled_dropZeroSign_eq_iff {v : Value} (h : v.InRange) :
    v.settled.dropZeroSign = v ↔ v.Storable ∧ v ≠ number (.finite true 0) := by
  cases v with
  | dateTime i =>
    have hsettled : (dateTime i).settled.dropZeroSign = dateTime i ↔ i.settled = i :=
      ⟨fun heq => dateTime.inj heq, fun heq => congrArg dateTime heq⟩
    rw [hsettled, Instant.settled_eq_iff]
    exact ⟨fun hregular => ⟨⟨h, hregular⟩, nofun⟩, fun hstorable => hstorable.1.2⟩
  | _ => exact dropZeroSign_eq_iff.trans (and_iff_right h).symm

/-- What is read back of a value in range is the settled value, with one zero. So exactly those
values come back as they were that documents can hold, a negative zero aside, which comes back as
zero; and two such values compare, and sort, after they were stored and read back as they did
before. -/
theorem stored_lossless_iff {v w : Value} (hv : v.InRange) :
    ofDocument v.toDocument = v.settled.dropZeroSign ∧
      (ofDocument v.toDocument = v ↔ v.Storable ∧ v ≠ number (.finite true 0)) ∧
      ofDocument (number (.finite true 0)).toDocument = number (.finite false 0) ∧
      (v.Storable → w.Storable →
        (ofDocument v.toDocument).compare (ofDocument w.toDocument) = v.compare w ∧
          (ofDocument v.toDocument).sortCompare (ofDocument w.toDocument) = v.sortCompare w) := by
  have hread : ofDocument v.toDocument = v.settled.dropZeroSign :=
    ofDocument_toDocument_of_inRange hv
  refine ⟨hread, ?_, ofDocument_toDocument rfl, fun hv hw => ?_⟩
  · rw [hread]
    exact settled_dropZeroSign_eq_iff hv
  · rw [ofDocument_toDocument hv, ofDocument_toDocument hw]
    exact ⟨compare_dropZeroSign v w, sortCompare_dropZeroSign v w⟩

/-- One nanosecond into the leap second at the end of a year. -/
def leapSecond : Instant := ⟨⟨2016, 12, 31, by decide⟩, ⟨86399, 1000000001, by decide⟩⟩

/-- The first day of the next year. -/
def newYear : Instant := ⟨⟨2017, 1, 1, by decide⟩, .midnight⟩

theorem stored_lossless_iff_leapSecond :
    (dateTime leapSecond).InRange ∧ leapSecond.text = "2016-12-31T23:59:60.000000001Z" ∧
      ofDocument (dateTime leapSecond).toDocument = dateTime leapSecond ∧
      (ofDocument (dateTime leapSecond).toDocument).compare
        (ofDocument (dateTime newYear).toDocument) = some .lt := by
  have hrange : (dateTime leapSecond).InRange := by decide
  obtain ⟨-, hback, -, horder⟩ := stored_lossless_iff (w := dateTime newYear) hrange
  refine ⟨hrange, by decide, hback.2 ⟨by decide, by decide⟩, ?_⟩
  rw [(horder (by decide) (by decide)).1]
  decide

/-- A third of a second into a leap second that follows four seconds after a full minute. -/
def midMinuteLeap : Instant := ⟨⟨2015, 6, 30, by decide⟩, ⟨86164, 1333333333, by decide⟩⟩

/-- The second after it, from its start. -/
def secondAfter : Instant := ⟨⟨2015, 6, 30, by decide⟩, ⟨86165, 0, by decide⟩⟩

/-- A leap second within a minute comes before the next second, and is read back from behind its
start. -/
theorem midMinuteLeap_lost :
    (dateTime midMinuteLeap).InRange ∧ midMinuteLeap.text = "2015-06-30T23:56:05.333333333Z" ∧
      ofDocument (dateTime midMinuteLeap).toDocument ≠ dateTime midMinuteLeap ∧
      (dateTime midMinuteLeap).compare (dateTime secondAfter) = some .lt ∧
      (ofDocument (dateTime midMinuteLeap).toDocument).compare
        (ofDocument (dateTime secondAfter).toDocument) = some .gt := by
  have hback : ofDocument (dateTime midMinuteLeap).toDocument = dateTime midMinuteLeap.settled :=
    ofDocument_toDocument_of_inRange (v := dateTime midMinuteLeap) (by decide)
  have hafter : ofDocument (dateTime secondAfter).toDocument = dateTime secondAfter :=
    ofDocument_toDocument (v := dateTime secondAfter) (by decide)
  rw [hback, hafter]
  exact ⟨by decide, by decide, by decide, by decide, by decide⟩

end Value

end EntityQuery
