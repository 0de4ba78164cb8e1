import EntityQuery.Proofs.Filter.Classes
import EntityQuery.Proofs.RoundTrip.Instant

/-!
# Written date-times

A date-time in a filter as its parts, each a number of fixed width but for the fraction of a second
(`WrittenTime`). The texts of the class of date-times are those of written date-times and no others
(`WrittenTime.matches_iff`).
-/

namespace EntityQuery

open Text Text.Pattern

/-! ## Digits -/

namespace Decimal

theorem digitsValue_cons (c : Char) (cs : List Char) :
    digitsValue (c :: cs) = tenTo cs.length * (c.toNat - '0'.toNat) + digitsValue cs := by
  show Nat.ofDigitChars 10 (c :: cs) 0 = _
  rw [Nat.ofDigitChars_cons, Nat.ofDigitChars_eq_ofDigitChars_zero, Nat.mul_zero, Nat.zero_add]
  rfl

theorem tenTo_pos (n : Nat) : 0 < tenTo n := Nat.pow_pos (by decide)

/-- The code of a digit. -/
theorem toNat_of_isDigit {c : Char} (h : c.isDigit = true) : 48 ≤ c.toNat ∧ c.toNat ≤ 57 := by
  simpa [Char.isDigit, UInt32.le_iff_toNat_le] using h

theorem digitsValue_lt {ds : List Char} (h : ∀ c ∈ ds, c.isDigit = true) :
    digitsValue ds < tenTo ds.length := by
  induction ds with
  | nil => decide
  | cons c ds ih =>
    obtain ⟨hc, hds⟩ := List.forall_mem_cons.1 h
    have hrest := ih hds
    have hbounds := toNat_of_isDigit hc
    have hzero : '0'.toNat = 48 := rfl
    have htop : tenTo (ds.length + 1) = tenTo ds.length * 9 + tenTo ds.length :=
      (Nat.pow_succ 10 ds.length).trans (Nat.mul_succ _ 9)
    have hdigit : tenTo ds.length * (c.toNat - '0'.toNat) ≤ tenTo ds.length * 9 :=
      Nat.mul_le_mul_left _ (by omega)
    rw [digitsValue_cons, List.length_cons, htop]
    omega

/-- Digits of one width and one value are the same. -/
theorem eq_of_digitsValue {ds es : List Char} (hd : ∀ c ∈ ds, c.isDigit = true)
    (he : ∀ c ∈ es, c.isDigit = true) (hlen : ds.length = es.length)
    (h : digitsValue ds = digitsValue es) : ds = es := by
  induction ds generalizing es with
  | nil => exact (List.length_eq_zero_iff.1 hlen.symm).symm
  | cons c ds ih =>
    cases es with
    | nil => cases hlen
    | cons e es =>
      obtain ⟨hc, hd⟩ := List.forall_mem_cons.1 hd
      obtain ⟨he', he⟩ := List.forall_mem_cons.1 he
      have hlen : ds.length = es.length := Nat.succ.inj hlen
      rw [digitsValue_cons, digitsValue_cons, ← hlen] at h
      have hpos := tenTo_pos ds.length
      have hlt := digitsValue_lt hd
      have hlt' := digitsValue_lt he
      rw [← hlen] at hlt'
      -- The first digit is the quotient, and what follows the remainder.
      have hfirst := congrArg (· / tenTo ds.length) h
      have hrest := congrArg (· % tenTo ds.length) h
      simp only [Nat.mul_add_div hpos, Nat.div_eq_of_lt hlt, Nat.div_eq_of_lt hlt',
        Nat.mul_add_mod, Nat.mod_eq_of_lt hlt, Nat.mod_eq_of_lt hlt', Nat.add_zero] at hfirst hrest
      have hbounds := toNat_of_isDigit hc
      have hbounds' := toNat_of_isDigit he'
      have hzero : '0'.toNat = 48 := rfl
      have hchar : c = e := Char.toNat_inj.1 (by omega)
      rw [hchar, ih hd he hlen hrest]

end Decimal

namespace Instant

/-- Digits are their value, padded to their width. -/
theorem eq_padded {width : Nat} {ds : List Char} (hwidth : 0 < width) (hlen : ds.length = width)
    (hd : ∀ c ∈ ds, c.isDigit = true) : ds = padded width (Decimal.digitsValue ds) := by
  have hlt := Decimal.digitsValue_lt hd
  rw [hlen] at hlt
  exact Decimal.eq_of_digitsValue hd (fun _ => isDigit_of_mem_padded)
    (hlen.trans (length_padded hwidth hlt).symm) (digitsValue_padded width _).symm

end Instant

namespace Text.Pattern

theorem matches_opt (p : Pattern) (w : List Char) : Matches (opt p) w ↔ Matches p w ∨ w = [] := by
  rw [opt, matches_alt_iff, matches_empty_iff]

theorem matches_set {p : Char → Bool} {w : List Char} :
    Matches (set p) w ↔ ∃ c, w = [c] ∧ p c = true := by
  constructor
  · rintro ⟨⟩
    exact ⟨_, rfl, ‹_›⟩
  · rintro ⟨c, rfl, hc⟩
    exact .set hc

theorem matches_times_of_all {p : Char → Bool} {n : Nat} {w : List Char} (hlen : w.length = n)
    (hw : ∀ c ∈ w, p c = true) : Matches (times n (set p)) w := by
  induction n generalizing w with
  | zero =>
    rw [List.length_eq_zero_iff.1 hlen]
    exact .empty
  | succ n ih =>
    obtain ⟨c, cs, rfl⟩ := List.exists_cons_of_length_eq_add_one hlen
    obtain ⟨hc, hcs⟩ := List.forall_mem_cons.1 hw
    have hlen : cs.length = n := Nat.succ.inj hlen
    cases n with
    | zero =>
      rw [List.length_eq_zero_iff.1 hlen]
      exact .set hc
    | succ n => exact .seq (u := [c]) (.set hc) (ih hlen hcs)

theorem matches_plus {p : Char → Bool} {w : List Char} :
    Matches (plus (set p)) w ↔ w ≠ [] ∧ ∀ c ∈ w, p c = true := by
  have hstar {w : List Char} : Matches (.star (set p)) w ↔ ∀ c ∈ w, p c = true := by
    induction w with
    | nil => exact ⟨fun _ => List.forall_mem_nil _, fun _ => .stop⟩
    | cons c w ih =>
      rw [matches_star_cons, List.forall_mem_cons]
      constructor
      · rintro ⟨u, v, rfl, hu, hv⟩
        obtain ⟨d, hd, hc⟩ := matches_set.1 hu
        obtain ⟨rfl, rfl⟩ := List.cons.inj hd
        exact ⟨hc, ih.1 hv⟩
      · exact fun ⟨hc, hw⟩ => ⟨[], w, rfl, .set hc, ih.2 hw⟩
  rw [plus, matches_seq_iff]
  constructor
  · rintro ⟨u, v, rfl, hu, hv⟩
    obtain ⟨c, rfl, hc⟩ := matches_set.1 hu
    exact ⟨List.cons_ne_nil c v, List.forall_mem_cons.2 ⟨hc, hstar.1 hv⟩⟩
  · rintro ⟨hne, hw⟩
    obtain ⟨c, v, rfl⟩ := List.exists_cons_of_ne_nil hne
    obtain ⟨hc, hv⟩ := List.forall_mem_cons.1 hw
    exact ⟨[c], v, rfl, .set hc, hstar.2 hv⟩

/-- A number of fixed width. -/
theorem matches_number {width : Nat} (hwidth : 0 < width) {w : List Char} :
    Matches (times width Lexeme.digit) w ↔
      ∃ n : Fin (tenTo width), w = Instant.padded width n := by
  constructor
  · intro h
    obtain ⟨hlen, hw⟩ := matches_times_set h
    have hlt := Decimal.digitsValue_lt hw
    rw [hlen] at hlt
    exact ⟨⟨_, hlt⟩, Instant.eq_padded hwidth hlen hw⟩
  · rintro ⟨n, rfl⟩
    exact matches_times_of_all (Instant.length_padded hwidth n.isLt)
      fun _ => Instant.isDigit_of_mem_padded

theorem matches_seq_number {width : Nat} (hwidth : 0 < width) (p : Pattern) (w : List Char) :
    Matches (seq (times width Lexeme.digit) p) w ↔
      ∃ (n : Fin (tenTo width)) (v : List Char), w = Instant.padded width n ++ v ∧ Matches p v := by
  rw [matches_seq_iff]
  constructor
  · rintro ⟨u, v, rfl, hu, hv⟩
    obtain ⟨n, rfl⟩ := (matches_number hwidth).1 hu
    exact ⟨n, v, rfl, hv⟩
  · rintro ⟨n, v, rfl, hv⟩
    exact ⟨_, v, rfl, (matches_number hwidth).2 ⟨n, rfl⟩, hv⟩

theorem matches_seq_char (c : Char) (p : Pattern) (w : List Char) :
    Matches (seq (char c) p) w ↔ ∃ v, w = c :: v ∧ Matches p v := by
  rw [matches_seq_iff]
  constructor
  · rintro ⟨u, v, rfl, hu, hv⟩
    rw [Lexeme.matches_char.1 hu]
    exact ⟨v, rfl, hv⟩
  · rintro ⟨v, rfl, hv⟩
    exact ⟨[c], v, rfl, Lexeme.matches_char.2 rfl, hv⟩

end Text.Pattern

/-! ## Parts -/

inductive WrittenZone where
  | utc
  | offset (negative : Bool) (hour minute : Fin (tenTo 2))

def WrittenZone.chars : WrittenZone → List Char
  | utc => ['Z']
  | offset negative hour minute =>
    (if negative then '-' else '+') :: (Instant.padded 2 hour ++ ':' :: Instant.padded 2 minute)

structure WrittenSeconds where
  second : Fin (tenTo 2)
  /-- The digits behind the point; there is no point without digits. -/
  fraction : List Char
  isDigit : ∀ c ∈ fraction, c.isDigit = true

def pointChars (fraction : List Char) : List Char :=
  if fraction = [] then [] else '.' :: fraction

def WrittenSeconds.chars (s : WrittenSeconds) : List Char :=
  ':' :: (Instant.padded 2 s.second ++ pointChars s.fraction)

structure WrittenClock where
  hour : Fin (tenTo 2)
  minute : Fin (tenTo 2)
  seconds : Option WrittenSeconds
  zone : Option WrittenZone

def WrittenClock.chars (c : WrittenClock) : List Char :=
  'T' :: (Instant.padded 2 c.hour ++ ':' :: (Instant.padded 2 c.minute ++
    (c.seconds.elim [] WrittenSeconds.chars ++ c.zone.elim [] WrittenZone.chars)))

structure WrittenTime where
  year : Fin (tenTo 4)
  month : Fin (tenTo 2)
  day : Fin (tenTo 2)
  clock : Option WrittenClock

def WrittenTime.chars (w : WrittenTime) : List Char :=
  Instant.padded 4 w.year ++ '-' :: (Instant.padded 2 w.month ++
    '-' :: (Instant.padded 2 w.day ++ w.clock.elim [] WrittenClock.chars))

/-! ## The pattern of each part -/

section Matching

variable {w : List Char}

theorem matches_optional {α : Type} {p : Pattern} {chars : α → List Char}
    (h : ∀ w, Matches p w ↔ ∃ a, w = chars a) :
    Matches (opt p) w ↔ ∃ o : Option α, w = o.elim [] chars := by
  rw [matches_opt, h]
  constructor
  · rintro (⟨a, rfl⟩ | rfl)
    · exact ⟨some a, rfl⟩
    · exact ⟨none, rfl⟩
  · rintro ⟨_ | a, rfl⟩
    · exact .inr rfl
    · exact .inl ⟨a, rfl⟩

theorem matches_zone (w : List Char) :
    Matches Lexeme.zonePattern w ↔ ∃ z : WrittenZone, w = z.chars := by
  have hsigned : Matches (all [set fun c => c == '+' || c == '-', times 2 Lexeme.digit, char ':',
      times 2 Lexeme.digit]) w ↔ ∃ negative hour minute,
        w = (WrittenZone.offset negative hour minute).chars := by
    show Matches (seq _ (seq _ (seq _ _))) w ↔ _
    constructor
    · intro h
      obtain ⟨u, v, rfl, hu, hv⟩ := (matches_seq_iff _ _ _).1 h
      obtain ⟨c, rfl, hc⟩ := matches_set.1 hu
      obtain ⟨hour, v, rfl, hcolon⟩ := (matches_seq_number (by decide) _ _).1 hv
      obtain ⟨v, rfl, hminute⟩ := (matches_seq_char _ _ _).1 hcolon
      obtain ⟨minute, rfl⟩ := (matches_number (by decide)).1 hminute
      rw [Bool.or_eq_true, beq_iff_eq, beq_iff_eq] at hc
      rcases hc with rfl | rfl
      · exact ⟨false, hour, minute, rfl⟩
      · exact ⟨true, hour, minute, rfl⟩
    · rintro ⟨negative, hour, minute, rfl⟩
      refine .seq (u := [_]) (.set ?_) ((matches_seq_number (by decide) _ _).2
        ⟨hour, _, rfl, (matches_seq_char _ _ _).2
          ⟨_, rfl, (matches_number (by decide)).2 ⟨minute, rfl⟩⟩⟩)
      cases negative <;> rfl
  rw [Lexeme.zonePattern, matches_alt_iff, Lexeme.matches_char, hsigned]
  constructor
  · rintro (rfl | ⟨negative, hour, minute, rfl⟩)
    · exact ⟨.utc, rfl⟩
    · exact ⟨_, rfl⟩
  · rintro ⟨_ | ⟨negative, hour, minute⟩, rfl⟩
    · exact .inl rfl
    · exact .inr ⟨negative, hour, minute, rfl⟩

/-- A point and digits, or neither. -/
theorem matches_point (w : List Char) :
    Matches (opt (seq (char '.') (plus Lexeme.digit))) w ↔
      ∃ fraction, (∀ c ∈ fraction, c.isDigit = true) ∧ w = pointChars fraction := by
  rw [matches_opt, matches_seq_char]
  constructor
  · rintro (⟨fraction, rfl, hv⟩ | rfl)
    · obtain ⟨hne, hdigits⟩ := matches_plus.1 hv
      exact ⟨fraction, hdigits, (if_neg hne).symm⟩
    · exact ⟨[], List.forall_mem_nil _, rfl⟩
  · rintro ⟨fraction, hdigits, rfl⟩
    by_cases hne : fraction = []
    · exact .inr (if_pos hne)
    · exact .inl ⟨fraction, if_neg hne, matches_plus.2 ⟨hne, hdigits⟩⟩

theorem matches_seconds (w : List Char) :
    Matches (all [char ':', times 2 Lexeme.digit, opt (seq (char '.') (plus Lexeme.digit))]) w ↔
      ∃ s : WrittenSeconds, w = s.chars := by
  show Matches (seq _ (seq _ _)) w ↔ _
  rw [matches_seq_char]
  constructor
  · rintro ⟨v, rfl, hv⟩
    obtain ⟨second, v, rfl, hpoint⟩ := (matches_seq_number (by decide) _ _).1 hv
    obtain ⟨fraction, hdigits, rfl⟩ := (matches_point v).1 hpoint
    exact ⟨⟨second, fraction, hdigits⟩, rfl⟩
  · rintro ⟨⟨second, fraction, hdigits⟩, rfl⟩
    exact ⟨_, rfl, (matches_seq_number (by decide) _ _).2
      ⟨second, _, rfl, (matches_point _).2 ⟨fraction, hdigits, rfl⟩⟩⟩

theorem matches_clock (w : List Char) :
    Matches Lexeme.timePattern w ↔ ∃ c : WrittenClock, w = c.chars := by
  show Matches (seq _ (seq _ (seq _ (seq _ (seq _ _))))) w ↔ _
  rw [matches_seq_char]
  constructor
  · rintro ⟨v, rfl, hv⟩
    obtain ⟨hour, v, rfl, hcolon⟩ := (matches_seq_number (by decide) _ _).1 hv
    obtain ⟨v, rfl, hminute⟩ := (matches_seq_char _ _ _).1 hcolon
    obtain ⟨minute, v, rfl, hback⟩ := (matches_seq_number (by decide) _ _).1 hminute
    obtain ⟨u, v, rfl, hseconds, hzone⟩ := (matches_seq_iff _ _ _).1 hback
    obtain ⟨seconds, rfl⟩ := (matches_optional matches_seconds).1 hseconds
    obtain ⟨zone, rfl⟩ := (matches_optional matches_zone).1 hzone
    exact ⟨⟨hour, minute, seconds, zone⟩, rfl⟩
  · rintro ⟨⟨hour, minute, seconds, zone⟩, rfl⟩
    have hback := Matches.seq ((matches_optional matches_seconds).2 ⟨seconds, rfl⟩)
      ((matches_optional matches_zone).2 ⟨zone, rfl⟩)
    exact ⟨_, rfl, (matches_seq_number (by decide) _ _).2 ⟨hour, _, rfl,
      (matches_seq_char _ _ _).2 ⟨_, rfl,
        (matches_seq_number (by decide) _ _).2 ⟨minute, _, rfl, hback⟩⟩⟩⟩

end Matching

/-- The texts of the class of date-times are the written date-times. -/
theorem WrittenTime.matches_iff (w : List Char) :
    Matches Lexeme.dateTimePattern w ↔ ∃ t : WrittenTime, w = t.chars := by
  show Matches (seq _ (seq _ (seq _ (seq _ (seq _ _))))) w ↔ _
  rw [matches_seq_number (by decide)]
  constructor
  · rintro ⟨year, v, rfl, hv⟩
    obtain ⟨v, rfl, hmonth⟩ := (matches_seq_char _ _ _).1 hv
    obtain ⟨month, v, rfl, hhyphen⟩ := (matches_seq_number (by decide) _ _).1 hmonth
    obtain ⟨v, rfl, hday⟩ := (matches_seq_char _ _ _).1 hhyphen
    obtain ⟨day, v, rfl, hclock⟩ := (matches_seq_number (by decide) _ _).1 hday
    obtain ⟨clock, rfl⟩ := (matches_optional matches_clock).1 hclock
    exact ⟨⟨year, month, day, clock⟩, rfl⟩
  · rintro ⟨⟨year, month, day, clock⟩, rfl⟩
    have hclock := (matches_optional matches_clock).2 ⟨clock, rfl⟩
    exact ⟨year, _, rfl, (matches_seq_char _ _ _).2 ⟨_, rfl,
      (matches_seq_number (by decide) _ _).2 ⟨month, _, rfl,
        (matches_seq_char _ _ _).2 ⟨_, rfl,
          (matches_seq_number (by decide) _ _).2 ⟨day, _, rfl, hclock⟩⟩⟩⟩⟩

end EntityQuery
