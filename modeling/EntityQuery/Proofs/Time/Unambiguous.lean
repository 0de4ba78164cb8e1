import EntityQuery.Proofs.Time.Reading
import EntityQuery.Proofs.Time.Recognizing

/-!
# One instant to a text

Each part of the text of a date-time is taken whole by its reader, whatever follows that cannot
belong to it. So a text shows one time only (`DateTimeText.unique`), and stands for one instant only
(`Instant.SpelledBy.unique`).
-/

namespace EntityQuery

/-! ## Readers -/

namespace Reader

theorem looseDate_text {u rest : List Char} {d : Date} (h : DateText u d) (hrest : EndsDigits rest) :
    looseDate (u ++ rest) = some (d, rest) := by
  obtain ⟨hb, hy, hb', hm, hb'', hd⟩ := h
  simp only [List.append_assoc, List.cons_append]
  rw [looseDate, bind_of_eq (year_append hb hy (endsDigits_cons rfl _)), bind_of_eq (skip_cons '-' _),
    bind_of_eq (shortNumber_append hb' hm (.inr (endsDigits_cons rfl _))), bind_of_eq (skip_cons '-' _),
    bind_of_eq (shortNumber_append hb'' hd (.inr hrest)), lift_some (Date.of?_parts d)]

theorem isBlank_of_sign {c : Char} (h : c = '+' ∨ c = '-' ∨ c = '\u2212') :
    Text.isBlank c = false := by
  rcases h with rfl | rfl | rfl <;> decide

theorem endsDigits_separator {c : Char} (h : c = 'T' ∨ c = 't' ∨ c = ' ') (cs : List Char) :
    EndsDigits (c :: cs) := by
  rcases h with rfl | rfl | rfl <;> exact endsDigits_cons rfl cs

theorem endsDigits_pointChars (ds : List Char) {z : List Char} (hz : EndsDigits z) :
    EndsDigits (pointChars ds ++ z) := by
  unfold pointChars
  split
  · exact hz
  · exact endsDigits_cons rfl _

/-- A colon, the seconds and their nanoseconds. -/
def secondsReader : Reader (Nat × Nat) := do
  skip ':'
  let second ← shortNumber
  let nanos ← fraction
  pure (second, nanos)

end Reader

/-! ## Texts -/

section

open Reader

theorem OffsetText.head {z : List Char} {offset : Int} (h : OffsetText z offset) :
    ∀ c ∈ z.head?, c.isDigit = false ∧ c ≠ ':' ∧ c ≠ '.' := by
  intro c hc
  cases h with
  | none => cases hc
  | utc hZ =>
    obtain rfl := Option.some.inj hc
    rcases hZ with rfl | rfl <;> decide
  | @signed b h gap m d hour minute hb hd =>
    cases b with
    | nil =>
      obtain rfl := Option.some.inj hc
      rcases hd with rfl | rfl | rfl <;> decide
    | cons d' b =>
      obtain rfl := Option.some.inj hc
      have hblank : Text.isBlank d' = true := hb d' List.mem_cons_self
      refine ⟨Bool.eq_false_iff.2 fun hdigit => ?_, ?_, ?_⟩
      · rw [isBlank_of_isDigit hdigit] at hblank
        cases hblank
      · rintro rfl
        exact absurd hblank (by decide)
      · rintro rfl
        exact absurd hblank (by decide)

/-- What is not missing is taken by one reader. -/
theorem OffsetText.read {z : List Char} {offset : Int} (h : OffsetText z offset) :
    z = [] ∧ offset = 0 ∨
      (do blanks; offsetOrZ colonsOrBlanks : Reader Int) z = some (offset, []) := by
  cases h with
  | none => exact .inl ⟨rfl, rfl⟩
  | utc hZ =>
    right
    rcases hZ with rfl | rfl
    · rw [bind_of_eq (blanks_cons (by decide) [])]
      rfl
    · rw [bind_of_eq (blanks_cons (by decide) [])]
      rfl
  | signed hb hc hhour hle hgap hminute hle' =>
    right
    have hblank : Text.isBlank _ = false := isBlank_of_sign hc
    have hskip := colonsOrBlanks_append hgap hminute.isDigit
    rw [bind_of_eq (blanks_append_cons hb hblank _), ← signedOffset_append hc hhour hle hskip hminute
      hle']
    rcases hc with rfl | rfl | rfl <;> rfl

theorem OffsetText.unique {z : List Char} {offset offset' : Int} (h : OffsetText z offset)
    (h' : OffsetText z offset') : offset = offset' := by
  rcases h.read with ⟨rfl, rfl⟩ | hread
  · rcases h'.read with ⟨-, rfl⟩ | hread'
    · rfl
    · cases hread'
  · rcases h'.read with ⟨rfl, rfl⟩ | hread'
    · cases hread
    · exact (Prod.mk.inj (Option.some.inj (hread.symm.trans hread'))).1

theorem OffsetText.endsDigits {z : List Char} {offset : Int} (h : OffsetText z offset) :
    EndsDigits z :=
  fun c hc => (h.head c hc).1

section

variable {s z : List Char} {second nanos : Nat} {offset : Int}

theorem SecondsText.read (hs : SecondsText s second nanos) (hz : OffsetText z offset) :
    s = [] ∧ second = 0 ∧ nanos = 0 ∨ secondsReader (s ++ z) = some ((second, nanos), z) := by
  cases hs with
  | none => exact .inl ⟨rfl, rfl, rfl⟩
  | @seconds b s ds _ hb hs hds =>
    right
    have hpoint : z.head? ≠ some '.' := fun hc => (hz.head '.' hc).2.2 rfl
    simp only [List.cons_append, List.append_assoc]
    rw [secondsReader, bind_of_eq (skip_cons ':' _),
      bind_of_eq (shortNumber_append hb hs (.inr (endsDigits_pointChars ds hz.endsDigits))),
      bind_of_eq (fraction_pointChars hds hz.endsDigits hpoint)]
    rfl

theorem OffsetText.secondsReader_eq_none (hz : OffsetText z offset) :
    secondsReader z = Option.none := by
  have hcolon : z.head? ≠ some ':' := fun hc => (hz.head ':' hc).2.1 rfl
  exact bind_of_none (skip_of_ne hcolon)

theorem SecondsText.endsDigits (hs : SecondsText s second nanos) (hz : OffsetText z offset) :
    EndsDigits (s ++ z) := by
  cases hs with
  | none => exact hz.endsDigits
  | seconds => exact endsDigits_cons rfl _

theorem SecondsText.unique {s' z' : List Char} {second' nanos' : Nat} {offset' : Int}
    (hs : SecondsText s second nanos) (hz : OffsetText z offset)
    (hs' : SecondsText s' second' nanos') (hz' : OffsetText z' offset') (h : s ++ z = s' ++ z') :
    (second, nanos) = (second', nanos') ∧ z = z' := by
  rcases hs.read hz with ⟨rfl, rfl, rfl⟩ | hread
  · rcases hs'.read hz' with ⟨rfl, rfl, rfl⟩ | hread'
    · exact ⟨rfl, h⟩
    · rw [← h, List.nil_append, hz.secondsReader_eq_none] at hread'
      cases hread'
  · rcases hs'.read hz' with ⟨rfl, rfl, rfl⟩ | hread'
    · rw [h, List.nil_append, hz'.secondsReader_eq_none] at hread
      cases hread
    · rw [h, hread'] at hread
      obtain ⟨hparts, rfl⟩ := Prod.mk.inj (Option.some.inj hread)
      exact ⟨hparts.symm, rfl⟩

end

/-! ## One reading -/

section

variable {u u' rest rest' : List Char}

/-- A date is cut off at one place only. -/
theorem DateText.unique {d d' : Date} (hu : DateText u d) (hrest : EndsDigits rest)
    (hu' : DateText u' d') (hrest' : EndsDigits rest') (h : u ++ rest = u' ++ rest') :
    d = d' ∧ rest = rest' := by
  have hread := looseDate_text hu hrest
  rw [h, looseDate_text hu' hrest'] at hread
  obtain ⟨hd, hr⟩ := Prod.mk.inj (Option.some.inj hread)
  exact ⟨hd.symm, hr.symm⟩

theorem NumberText.unique {b b' : List Char} {n n' : Nat} (hu : NumberText 1 2 u n)
    (hb : AllBlank b) (hrest : EndsDigits rest) (hb' : AllBlank b')
    (hu' : NumberText 1 2 u' n') (hrest' : EndsDigits rest')
    (h : b ++ (u ++ rest) = b' ++ (u' ++ rest')) : n = n' ∧ rest = rest' := by
  have hread := shortNumber_append hb hu (.inr hrest)
  rw [h, shortNumber_append hb' hu' (.inr hrest')] at hread
  obtain ⟨hn, hr⟩ := Prod.mk.inj (Option.some.inj hread)
  exact ⟨hn.symm, hr.symm⟩

/-- Nothing follows a date that is the whole text. -/
theorem DateText.not_continued {d d' : Date} (hu : DateText u d) (hu' : DateText u' d') {c : Char}
    (hc : c = 'T' ∨ c = 't' ∨ c = ' ') (h : u = u' ++ c :: rest) : False := by
  rw [← List.append_nil u] at h
  cases (hu.unique endsDigits_nil hu' (endsDigits_separator hc rest) h).2

end

theorem DateTimeText.unique_of_eq {cs cs' : List Char} {s s' : ShownTime} (h : DateTimeText cs s)
    (h' : DateTimeText cs' s') (heq : cs = cs') : s = s' := by
  have hcolon : ∀ cs, EndsDigits (':' :: cs) := endsDigits_cons rfl
  cases h with
  | date hu =>
    cases h' with
    | date hu' => rw [(hu.unique endsDigits_nil hu' endsDigits_nil (by rw [heq])).1]
    | clock hu' hc' => exact (hu.not_continued hu' hc' heq).elim
  | clock hu hc hhb hh hmb hm hs hz =>
    cases h' with
    | date hu' => exact (hu'.not_continued hu hc heq.symm).elim
    | clock hu' hc' hhb' hh' hmb' hm' hs' hz' =>
      obtain ⟨rfl, htail⟩ :=
        hu.unique (endsDigits_separator hc _) hu' (endsDigits_separator hc' _) heq
      obtain ⟨rfl, hminutes⟩ :=
        hh.unique hhb (hcolon _) hhb' hh' (hcolon _) (List.cons.inj htail).2
      obtain ⟨rfl, hback⟩ := hm.unique hmb (hs.endsDigits hz) hmb' hm' (hs'.endsDigits hz')
        (List.cons.inj hminutes).2
      obtain ⟨hparts, rfl⟩ := hs.unique hz hs' hz' hback
      obtain ⟨rfl, rfl⟩ := Prod.mk.inj hparts
      rw [hz.unique hz']

/-- A text shows one time only. -/
theorem DateTimeText.unique {cs : List Char} {s s' : ShownTime} (h : DateTimeText cs s)
    (h' : DateTimeText cs s') : s = s' :=
  h.unique_of_eq h' rfl

end

/-- A text stands for one instant only. -/
theorem Instant.SpelledBy.unique {i j : Instant} {cs : List Char} (hi : i.SpelledBy cs)
    (hj : j.SpelledBy cs) : i = j := by
  obtain ⟨s, hs, hi⟩ := hi
  obtain ⟨s', hs', hj⟩ := hj
  rw [hs.unique hs'] at hi
  exact hi.unique hj

end EntityQuery
