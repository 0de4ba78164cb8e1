import EntityQuery.Time.Reader

/-!
# Numbers in the texts of instants

The numbers of a text are runs of digits with a range of lengths (`NumberText`), with blanks in
front of some, and years, which may have a sign (`YearText`). The reader of a number takes all of it
off a text, whatever follows that cannot belong to it, and so does the reader of an offset with the
two numbers that it has.
-/

namespace EntityQuery

/-- Digits within a range of lengths, and their value. -/
structure NumberText (least most : Nat) (cs : List Char) (n : Nat) : Prop where
  isDigit : ∀ c ∈ cs, c.isDigit = true
  least_le : least ≤ cs.length
  le_most : cs.length ≤ most
  value : Decimal.digitsValue cs = n

theorem NumberText.widen {least most least' most' n : Nat} {u : List Char}
    (h : NumberText least most u n) (hleast : least' ≤ least) (hmost : most ≤ most') :
    NumberText least' most' u n :=
  ⟨h.isDigit, Nat.le_trans hleast h.least_le, Nat.le_trans h.le_most hmost, h.value⟩

def AllBlank (cs : List Char) : Prop := ∀ c ∈ cs, Text.isBlank c = true

theorem allBlank_nil : AllBlank [] := List.forall_mem_nil _

/-- A year has up to four digits, or a sign and any number of digits. -/
inductive YearText : List Char → Int → Prop where
  | bare {cs : List Char} {n : Nat} : NumberText 1 4 cs n → YearText cs n
  | plus {cs : List Char} {n : Nat} : NumberText 1 cs.length cs n → YearText ('+' :: cs) n
  | minus {cs : List Char} {n : Nat} : NumberText 1 cs.length cs n → YearText ('-' :: cs) (-n)

namespace Reader

/-! ## Steps -/

theorem bind_apply {α β : Type} (r : Reader α) (f : α → Reader β) (cs : List Char) :
    (r >>= f) cs = (r cs).bind fun p => f p.1 p.2 := rfl

/-- A reader that succeeds hands what it found and the rest to the next one. -/
theorem bind_of_eq {α β : Type} {r : Reader α} {f : α → Reader β} {cs rest : List Char} {a : α}
    (h : r cs = some (a, rest)) : (r >>= f) cs = f a rest := by
  rw [bind_apply, h]
  rfl

theorem lift_some {α : Type} {o : Option α} {a : α} (h : o = some a) (cs : List Char) :
    (StateT.lift o : Reader α) cs = some (a, cs) := by
  rw [h]
  rfl

theorem skip_cons (c : Char) (rest : List Char) : skip c (c :: rest) = some ((), rest) := by
  have h : satisfy (· == c) (c :: rest) = some (c, rest) := if_pos (beq_self_eq_true c)
  rw [skip, bind_of_eq h]
  rfl

/-- A run of characters of a class is found up to where it ends. -/
theorem takeWhile_append {p : Char → Bool} {w rest : List Char} (hw : ∀ c ∈ w, p c = true)
    (h : ∀ c ∈ rest.head?, ¬ p c = true) :
    (w ++ rest).takeWhile p = w ∧ (w ++ rest).dropWhile p = rest := by
  rw [List.takeWhile_append_of_pos hw, List.dropWhile_append_of_pos hw]
  cases rest with
  | nil => exact ⟨List.append_nil w, rfl⟩
  | cons c rest =>
    have hc := h c rfl
    rw [List.takeWhile_cons_of_neg hc, List.dropWhile_cons_of_neg hc, List.append_nil]
    exact ⟨rfl, rfl⟩

/-! ## Blanks -/

variable {b u rest : List Char} {n : Nat}

theorem blanks_append (hb : AllBlank b) (hrest : ∀ c ∈ rest.head?, Text.isBlank c = false) :
    blanks (b ++ rest) = some ((), rest) := by
  have hstop : ∀ c ∈ rest.head?, ¬ Text.isBlank c = true := fun c hc =>
    Bool.eq_false_iff.1 (hrest c hc)
  rw [blanks, Text.dropBlank, (takeWhile_append hb hstop).2]

theorem blanks_append_cons (hb : AllBlank b) {c : Char} (hc : Text.isBlank c = false)
    (cs : List Char) : blanks (b ++ c :: cs) = some ((), c :: cs) :=
  blanks_append hb fun d hd => by
    cases hd
    exact hc

theorem blanks_of_not_blank (h : ∀ c ∈ rest.head?, Text.isBlank c = false) :
    blanks rest = some ((), rest) :=
  blanks_append allBlank_nil h

theorem blanks_nil : blanks [] = some ((), []) := rfl

theorem blanks_cons {c : Char} (h : Text.isBlank c = false) (cs : List Char) :
    blanks (c :: cs) = some ((), c :: cs) :=
  blanks_append_cons allBlank_nil h cs

theorem isBlank_of_isDigit {c : Char} (h : c.isDigit = true) : Text.isBlank c = false := by
  have hc : 48 ≤ c.toNat ∧ c.toNat ≤ 57 := by
    simpa [Char.isDigit, UInt32.le_iff_toNat_le] using h
  rw [Text.isBlank, Text.Ranges.mem, List.any_eq_false]
  intro r hr
  simp only [Text.blankRanges, List.mem_cons, List.not_mem_nil, or_false] at hr
  rcases hr with rfl | rfl | rfl | rfl | rfl | rfl | rfl | rfl | rfl | rfl <;> simp <;> omega

/-! ## Digits -/

/-- No digit comes next. -/
def EndsDigits (rest : List Char) : Prop := ∀ c ∈ rest.head?, c.isDigit = false

theorem endsDigits_nil : EndsDigits [] := fun _ h => by cases h

theorem endsDigits_cons {c : Char} (h : c.isDigit = false) (rest : List Char) :
    EndsDigits (c :: rest) := by
  intro d hd
  cases hd
  exact h

theorem takeWhile_take_append {ds rest : List Char} {most : Nat} (hd : ∀ c ∈ ds, c.isDigit = true)
    (hlen : ds.length ≤ most) (hend : ds.length = most ∨ EndsDigits rest) :
    ((ds ++ rest).take most).takeWhile Char.isDigit = ds := by
  rw [List.take_append, List.take_of_length_le hlen, List.takeWhile_append_of_pos hd]
  rcases hend with hend | hend
  · simp [hend]
  · cases rest with
    | nil => simp
    | cons c rest =>
      have hc : c.isDigit = false := hend c rfl
      cases hk : most - ds.length with
      | zero => simp
      | succ k => simp [hc]

theorem digits_append {ds rest : List Char} {least most : Nat} (hd : ∀ c ∈ ds, c.isDigit = true)
    (hleast : least ≤ ds.length) (hmost : ds.length ≤ most)
    (hend : ds.length = most ∨ EndsDigits rest) :
    digits least most (ds ++ rest) = some (ds, rest) := by
  simp only [digits, takeWhile_take_append hd hmost hend, if_pos hleast, List.drop_left]

/-- Digits behind the ninth are passed over. -/
theorem fraction_point {ds rest : List Char} (hd : ∀ c ∈ ds, c.isDigit = true)
    (hpos : 0 < ds.length) (hrest : EndsDigits rest) :
    fraction ('.' :: (ds ++ rest)) =
      some (Decimal.digitsValue (ds.take 9) * tenTo (9 - (ds.take 9).length), rest) := by
  have hsplit : ds ++ rest = ds.take 9 ++ (ds.drop 9 ++ rest) := by
    rw [← List.append_assoc, List.take_append_drop]
  have hlen : (ds.take 9).length = min 9 ds.length := List.length_take
  have hend : (ds.take 9).length = 9 ∨ EndsDigits (ds.drop 9 ++ rest) := by
    by_cases hlong : 9 ≤ ds.length
    · exact .inl (by omega)
    · right
      rw [List.drop_eq_nil_of_le (by omega), List.nil_append]
      exact hrest
  have hnine : digits 1 9 (ds ++ rest) = some (ds.take 9, ds.drop 9 ++ rest) := by
    rw [hsplit]
    exact digits_append (fun c hc => hd c (List.mem_of_mem_take hc)) (by omega) (by omega) hend
  have hothers : digits 0 (ds ++ rest).length (ds.drop 9 ++ rest) = some (ds.drop 9, rest) := by
    refine digits_append (fun c hc => hd c (List.mem_of_mem_drop hc)) (Nat.zero_le _) ?_
      (.inr hrest)
    rw [List.length_drop, List.length_append]
    omega
  simp only [fraction]
  rw [bind_of_eq hnine, bind_of_eq hothers]
  rfl

theorem number_append {least most : Nat} (h : NumberText least most u n)
    (hend : u.length = most ∨ EndsDigits rest) : number least most (u ++ rest) = some (n, rest) := by
  rw [number, bind_of_eq (digits_append h.isDigit h.least_le h.le_most hend), h.value]
  rfl

/-- What a number begins with is no blank. -/
theorem isBlank_head {most : Nat} (h : NumberText 1 most u n) (rest : List Char) :
    ∀ c ∈ (u ++ rest).head?, Text.isBlank c = false := by
  intro c hc
  cases u with
  | nil => exact absurd h.least_le (by decide)
  | cons d u =>
    obtain rfl := Option.some.inj hc
    exact isBlank_of_isDigit (h.isDigit d List.mem_cons_self)

theorem shortNumber_append (hb : AllBlank b) (h : NumberText 1 2 u n)
    (hend : u.length = 2 ∨ EndsDigits rest) :
    shortNumber (b ++ (u ++ rest)) = some (n, rest) := by
  rw [shortNumber, bind_of_eq (blanks_append hb (isBlank_head h rest)), number_append h hend]

theorem longNumber_append (h : NumberText 1 u.length u n) (hrest : EndsDigits rest) :
    longNumber (u ++ rest) = some (n, rest) := by
  have hlen : u.length ≤ (u ++ rest).length := by
    rw [List.length_append]
    exact Nat.le_add_right _ _
  rw [longNumber, number_append (h.widen (Nat.le_refl 1) hlen) (.inr hrest)]

theorem year_append {y : List Char} {year : Int} (hb : AllBlank b) (h : YearText y year)
    (hrest : EndsDigits rest) : Reader.year (b ++ (y ++ rest)) = some (year, rest) := by
  cases h with
  | bare h =>
    have hblanks := blanks_append hb (isBlank_head h rest)
    have hread := number_append h (.inr hrest)
    cases y with
    | nil => exact absurd h.least_le (by decide)
    | cons d ds =>
      have hd := h.isDigit d List.mem_cons_self
      rw [Reader.year, bind_of_eq hblanks]
      -- a digit is no sign
      split
      · rename_i heq
        rw [(List.cons.inj heq).1] at hd
        cases hd
      · rename_i heq
        rw [(List.cons.inj heq).1] at hd
        cases hd
      · rw [hread]
        rfl
  | plus h =>
    rw [List.cons_append, Reader.year, bind_of_eq (blanks_append_cons hb (by decide) _)]
    simp only [longNumber_append h hrest, Option.map_some]
  | minus h =>
    rw [List.cons_append, Reader.year, bind_of_eq (blanks_append_cons hb (by decide) _)]
    simp only [longNumber_append h hrest, Option.map_some]

/-! ## Offsets -/

/-- A sign, two digits, what the given reader takes, and two more digits. -/
theorem signedOffset_append {between : Reader Unit} {c : Char} {h gap m : List Char}
    {hour minute : Nat} (hc : c = '+' ∨ c = '-' ∨ c = '\u2212') (hhour : NumberText 2 2 h hour)
    (hle : hour ≤ 23) (hbetween : between (gap ++ m) = some ((), m))
    (hminute : NumberText 2 2 m minute) (hle' : minute ≤ 59) :
    signedOffset between (c :: (h ++ (gap ++ m))) =
      some ((if c = '+' then hour * 60 + minute else -(hour * 60 + minute) : Int), []) := by
  have hsign : sign (c :: (h ++ (gap ++ m))) = some (c != '+', h ++ (gap ++ m)) := by
    rcases hc with rfl | rfl | rfl <;> rfl
  have hlen : h.length = 2 := Nat.le_antisymm hhour.le_most hhour.least_le
  have hread : number 2 2 m = some (minute, []) := by
    have hall := number_append hminute (.inr endsDigits_nil)
    rwa [List.append_nil] at hall
  have hrange : ¬ (60 ≤ minute ∨ 24 ≤ hour) := by omega
  rw [signedOffset, bind_of_eq hsign, bind_of_eq (number_append hhour (.inl hlen)),
    bind_of_eq hbetween, bind_of_eq hread, if_neg hrange]
  by_cases hplus : c = '+'
  · rw [if_pos hplus, hplus]
    rfl
  · have hne : (c != '+') = true := bne_iff_ne.2 hplus
    rw [if_neg hplus, hne]
    rfl

/-- Colons and blanks in front of digits. -/
theorem colonsOrBlanks_append {gap m : List Char} (hgap : ∀ c ∈ gap, c = ':' ∨ Text.isBlank c = true)
    (hm : ∀ c ∈ m, c.isDigit = true) : colonsOrBlanks (gap ++ m) = some ((), m) := by
  have hstop : ∀ c ∈ m.head?, ¬ (c == ':' || Text.isBlank c) = true := by
    intro c hc
    have hdigit := hm c (List.mem_of_mem_head? hc)
    rw [isBlank_of_isDigit hdigit, Bool.or_false, beq_iff_eq]
    rintro rfl
    cases hdigit
  have htaken : ∀ c ∈ gap, (c == ':' || Text.isBlank c) = true := fun c hc => by
    rw [Bool.or_eq_true, beq_iff_eq]
    exact hgap c hc
  rw [colonsOrBlanks, (takeWhile_append htaken hstop).2]

end Reader

end EntityQuery
