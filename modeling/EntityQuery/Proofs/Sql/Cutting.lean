import EntityQuery.Proofs.Time.Numbers
import EntityQuery.Sql.Name

/-!
# Cutting SQL into tokens

How a database cuts a text into tokens. Blanks may stand between them, a letter or an underscore
begins a word, and a name may stand in double quotes. What a word and a quoted name are taken for,
and which other tokens there are, is what the parts of a statement differ in (`TokenReader`).
`TokenReader.Cuts` says of a piece of text that it is cut into certain tokens, or not at all,
wherever it is followed by a blank, a parenthesis or a comma, so that a text is cut piece by piece.
The name of a column is such a piece, bare (`cuts_plainName`) or quoted (`cuts_quotedName`).
-/

namespace EntityQuery.Sql

/-! ## The tokens at the front of a text -/

def isSpace (c : Char) : Bool := [' ', '\t', '\n', '\r'].contains c

def isWordStart (c : Char) : Bool := c.isAlpha || c == '_' || 127 < c.toNat

def isWordChar (c : Char) : Bool := isWordStart c || c.isDigit || c == '$'

/-- What stands in front of a closing quote, with each quote that is written twice once, and what
stands behind it. -/
def quotedBody? (q : Char) : List Char → Option (List Char × List Char)
  | [] => none
  | [c] => if c = q then some ([], []) else none
  | c :: d :: rest =>
    if c = q then
      if d = q then (quotedBody? q rest).map fun b => (q :: b.1, b.2) else some ([], d :: rest)
    else (quotedBody? q (d :: rest)).map fun b => (c :: b.1, b.2)

theorem length_quotedBody? {q : Char} {cs : List Char} {b : List Char × List Char}
    (h : quotedBody? q cs = some b) : b.2.length < cs.length := by
  fun_induction quotedBody? q cs generalizing b with
  | case1 => nomatch h
  | case2 =>
    obtain rfl := Option.some.inj h
    exact Nat.zero_lt_one
  | case3 => nomatch h
  | case4 rest ih =>
    obtain ⟨b', hb, rfl⟩ := Option.map_eq_some_iff.1 h
    have hlt := ih hb
    simp only [List.length_cons]
    omega
  | case5 d rest hd =>
    obtain rfl := Option.some.inj h
    simp
  | case6 c d rest hc ih =>
    obtain ⟨b', hb, rfl⟩ := Option.map_eq_some_iff.1 h
    have hlt := ih hb
    simp only [List.length_cons] at hlt ⊢
    omega

theorem length_dropWhile_le (p : Char → Bool) (cs : List Char) :
    (cs.dropWhile p).length ≤ cs.length := (List.dropWhile_sublist p).length_le

/-- How the token at the front of a text is read. -/
structure TokenReader (τ : Type) where
  /-- What a word without quotes is. -/
  word : List Char → τ
  /-- What a name in double quotes is. -/
  quoted : List Char → τ
  /-- The token at the front of a text that begins with neither, and the rest. -/
  other? : List Char → Option (τ × List Char)
  /-- A token takes at least one character. -/
  shortens : ∀ {cs : List Char} {r : τ × List Char}, other? cs = some r → r.2.length < cs.length

namespace TokenReader

variable {τ : Type} (R : TokenReader τ)

/-- The token at the front, and the rest. There is no empty name. -/
def read? : List Char → Option (τ × List Char)
  | [] => none
  | c :: cs =>
    if isWordStart c then some (R.word (c :: cs.takeWhile isWordChar), cs.dropWhile isWordChar)
    else if c = '"' then
      (quotedBody? '"' cs).bind fun b => if b.1 = [] then none else some (R.quoted b.1, b.2)
    else R.other? (c :: cs)

theorem length_read? {cs : List Char} {r : τ × List Char} (h : R.read? cs = some r) :
    r.2.length < cs.length := by
  cases cs with
  | nil => cases h
  | cons c cs =>
    simp only [read?] at h
    split at h
    · obtain rfl := Option.some.inj h
      exact Nat.lt_succ_of_le (length_dropWhile_le _ cs)
    split at h
    · obtain ⟨b, hb, h⟩ := Option.bind_eq_some_iff.1 h
      split at h
      · cases h
      · obtain rfl := Option.some.inj h
        exact Nat.lt_succ_of_lt (length_quotedBody? hb)
    · exact R.shortens h

/-- The tokens of a text, if it can be cut. -/
def tokens? (cs : List Char) : Option (List τ) :=
  match cs with
  | [] => some []
  | c :: cs =>
    if isSpace c then tokens? cs
    else match _h : R.read? (c :: cs) with
      | none => none
      | some r => (tokens? r.2).map (r.1 :: ·)
  termination_by cs.length
  decreasing_by
    · simp
    · exact R.length_read? ‹_›

theorem tokens?_nil : R.tokens? [] = some [] := by rw [tokens?]

theorem tokens?_space {c : Char} (h : isSpace c = true) (cs : List Char) :
    R.tokens? (c :: cs) = R.tokens? cs := by rw [tokens?, if_pos h]

theorem tokens?_of_none {c : Char} {cs : List Char} (hc : isSpace c = false)
    (h : R.read? (c :: cs) = none) : R.tokens? (c :: cs) = none := by
  rw [tokens?, if_neg (Bool.eq_false_iff.1 hc)]
  split
  · rfl
  · rename_i r hsome
    rw [h] at hsome
    cases hsome

theorem tokens?_cons {c : Char} {cs rest : List Char} {t : τ} (hc : isSpace c = false)
    (h : R.read? (c :: cs) = some (t, rest)) :
    R.tokens? (c :: cs) = (R.tokens? rest).map (t :: ·) := by
  rw [tokens?, if_neg (Bool.eq_false_iff.1 hc)]
  split
  · rename_i hnone
    rw [h] at hnone
    cases hnone
  · rename_i r hsome
    rw [h] at hsome
    obtain rfl := Option.some.inj hsome
    rfl

end TokenReader

/-! ## Characters -/

theorem isSpace_of_isWordStart {c : Char} (h : isWordStart c = true) : isSpace c = false := by
  cases hc : isSpace c with
  | false => rfl
  | true =>
    have hmem : c = ' ' ∨ c = '\t' ∨ c = '\n' ∨ c = '\r' := by simpa [isSpace] using hc
    rcases hmem with rfl | rfl | rfl | rfl <;> exact absurd h (by decide)

/-- A digit is neither a blank nor the start of a word. -/
theorem isSpace_isWordStart_of_isDigit {c : Char} (h : c.isDigit = true) :
    isSpace c = false ∧ isWordStart c = false := by
  have hrange : 48 ≤ c.toNat ∧ c.toNat ≤ 57 := by
    simpa [Char.isDigit, UInt32.le_iff_toNat_le] using h
  have hdigits : ∀ n < 58, 48 ≤ n →
      isSpace (Char.ofNat n) = false ∧ isWordStart (Char.ofNat n) = false := by decide
  have hc := hdigits c.toNat (by omega) hrange.1
  rwa [Char.ofNat_toNat] at hc

theorem isWordStart_of_isLower {c : Char} (h : c.isLower = true) : isWordStart c = true := by
  have halpha : c.isAlpha = (c.isUpper || c.isLower) := rfl
  rw [isWordStart, halpha, h, Bool.or_true, Bool.true_or, Bool.true_or]

theorem toLower_of_plain {c : Char} (h : (c.isLower || c.isDigit || c == '_') = true) :
    c.toLower = c := by
  have hcapital : ¬ (c.val ≥ 'A'.val ∧ c.val ≤ 'Z'.val) := by
    have hlowerCase : c.isLower = (c.val ≥ 'a'.val && c.val ≤ 'z'.val) := rfl
    have hdigit : c.isDigit = (c.val ≥ '0'.val && c.val ≤ '9'.val) := rfl
    simp only [hlowerCase, hdigit, Bool.or_eq_true, Bool.and_eq_true, decide_eq_true_eq,
      ge_iff_le, UInt32.le_iff_toNat_le, beq_iff_eq] at h ⊢
    rintro ⟨hlow, hhigh⟩
    have hA : 'A'.val.toNat = 65 := rfl
    have hZ : 'Z'.val.toNat = 90 := rfl
    have ha : 'a'.val.toNat = 97 := rfl
    have h9 : '9'.val.toNat = 57 := rfl
    rcases h with (⟨h, _⟩ | ⟨_, h⟩) | rfl
    · omega
    · omega
    · exact absurd hhigh (by decide)
  exact dif_neg hcapital

theorem isWordChar_of_plain {c : Char} (h : (c.isLower || c.isDigit || c == '_') = true) :
    isWordChar c = true := by
  simp only [Bool.or_eq_true] at h
  rcases h with (h | h) | h
  · rw [isWordChar, isWordStart_of_isLower h, Bool.true_or, Bool.true_or]
  · rw [isWordChar, h, Bool.or_true, Bool.true_or]
  · rw [isWordChar, isWordStart, h, Bool.or_true, Bool.true_or, Bool.true_or, Bool.true_or]

theorem isWordStart_of_plain {c : Char} (h : (c.isLower || c.isDigit || c == '_') = true)
    (hdigit : c.isDigit = false) : isWordStart c = true := by
  rw [hdigit, Bool.or_false, Bool.or_eq_true] at h
  rcases h with h | h
  · exact isWordStart_of_isLower h
  · rw [isWordStart, h, Bool.or_true, Bool.true_or]

theorem map_toLower_of_isPlain {cs : List Char} (h : isPlain cs = true) :
    cs.map Char.toLower = cs := by
  rw [isPlain, Bool.and_eq_true] at h
  have hlower : ∀ c ∈ cs, c.toLower = c := fun c hc =>
    toLower_of_plain (List.all_eq_true.1 h.2 c hc)
  exact (List.map_congr_left hlower).trans (List.map_id' _)

/-- A plain name that does not begin with a digit is one word. -/
theorem exists_word_of_isPlain {cs : List Char} (hplain : isPlain cs = true)
    (hdigit : ∀ c ∈ cs.head?, c.isDigit = false) :
    ∃ c w, cs = c :: w ∧ isWordStart c = true ∧ w.all isWordChar = true := by
  rw [isPlain, Bool.and_eq_true, bne_iff_ne] at hplain
  obtain ⟨hne, hall⟩ := hplain
  obtain ⟨c, w, rfl⟩ := List.exists_cons_of_ne_nil hne
  obtain ⟨hc, hw⟩ := List.forall_mem_cons.1 (List.all_eq_true.1 hall)
  exact ⟨c, w, rfl, isWordStart_of_plain hc (hdigit c rfl),
    List.all_eq_true.2 fun d hd => isWordChar_of_plain (hw d hd)⟩

/-! ## Where a piece of text ends -/

/-- Nothing, or a character that ends the token in front of it. -/
def Ends (rest : List Char) : Prop := ∀ c ∈ rest.head?, c ∈ [' ', '(', ')', ',']

theorem Ends.append {a b : List Char} (ha : Ends a) (hb : Ends b) : Ends (a ++ b) := by
  cases a with
  | nil => exact hb
  | cons c a => exact ha

/-- Characters that do not end a token do not follow one. -/
theorem Ends.ne {rest : List Char} (h : Ends rest) {q : Char} (hq : q ∉ [' ', '(', ')', ',']) :
    ∀ c ∈ rest.head?, c ≠ q := fun c hc heq => hq (heq ▸ h c hc)

/-- A character that ends a token is not one of a class without them. -/
theorem Ends.not_mem_class {rest : List Char} (h : Ends rest) {p : Char → Bool}
    (hp : [' ', '(', ')', ','].all (fun c => !p c) = true) : ∀ c ∈ rest.head?, ¬ p c = true := by
  intro c hc hpc
  have hnot := List.all_eq_true.1 hp c (h c hc)
  rw [hpc] at hnot
  nomatch hnot

theorem takeWhile_append_of_ends {w rest : List Char} {p : Char → Bool}
    (hw : w.all p = true) (hp : [' ', '(', ')', ','].all (fun c => !p c) = true)
    (h : Ends rest) : (w ++ rest).takeWhile p = w ∧ (w ++ rest).dropWhile p = rest :=
  Reader.takeWhile_append (List.all_eq_true.1 hw) (h.not_mem_class hp)

/-! ## Names in double quotes -/

theorem quotedBody?_close {q : Char} {rest : List Char} (h : ∀ c ∈ rest.head?, c ≠ q) :
    quotedBody? q (q :: rest) = some ([], rest) := by
  cases rest with
  | nil => rw [quotedBody?, if_pos rfl]
  | cons c rest => rw [quotedBody?, if_pos rfl, if_neg (h c rfl)]

theorem quotedBody?_cons {q c : Char} {cs : List Char} {b : List Char × List Char} (hc : c ≠ q)
    (h : quotedBody? q cs = some b) : quotedBody? q (c :: cs) = some (c :: b.1, b.2) := by
  cases cs with
  | nil => nomatch h
  | cons d cs => rw [quotedBody?, if_neg hc, h, Option.map_some]

/-- A name in double quotes is read back as it is. -/
theorem quotedBody?_doubleQuotes (cs : List Char) {rest : List Char}
    (h : ∀ c ∈ rest.head?, c ≠ '"') :
    quotedBody? '"' (doubleQuotes cs ++ '"' :: rest) = some (cs, rest) := by
  induction cs with
  | nil => exact quotedBody?_close h
  | cons c cs ih =>
    unfold doubleQuotes
    split
    · rename_i hc
      rw [hc, List.cons_append, List.cons_append, quotedBody?, if_pos rfl, if_pos rfl, ih,
        Option.map_some]
    · exact quotedBody?_cons ‹_› ih

theorem toList_quoteName_of_not_isPlain {s : String} (h : ¬ isPlain s.toList = true) :
    (quoteName s).toList = '"' :: doubleQuotes s.toList ++ ['"'] := by
  rw [quoteName, if_neg h, String.toList_ofList]

/-! ## Cutting piece by piece -/

section InFront

variable {τ : Type}

/-- How the tokens of a piece, if it can be cut, stand in front of those behind it. -/
def inFront (ts? us? : Option (List τ)) : Option (List τ) :=
  ts?.bind fun ts => us?.map (ts ++ ·)

@[simp] theorem inFront_none (us? : Option (List τ)) : inFront none us? = none := rfl

@[simp] theorem inFront_some_some (ts us : List τ) :
    inFront (some ts) (some us) = some (ts ++ us) := rfl

@[simp] theorem inFront_some_none (ts : List τ) : inFront (some ts) none = none := rfl

theorem inFront_assoc (a b c : Option (List τ)) :
    inFront (inFront a b) c = inFront a (inFront b c) := by
  cases a <;> cases b <;> cases c <;> simp

end InFront

namespace TokenReader

variable {τ : Type} {R : TokenReader τ}

theorem read?_word (R : TokenReader τ) {c : Char} {w rest : List Char} (hc : isWordStart c = true)
    (hw : ∀ d ∈ w, isWordChar d = true) (hrest : ∀ d ∈ rest.head?, ¬ isWordChar d = true) :
    R.read? (c :: (w ++ rest)) = some (R.word (c :: w), rest) := by
  obtain ⟨htake, hdrop⟩ := Reader.takeWhile_append hw hrest
  rw [read?, if_pos hc, htake, hdrop]

theorem read?_quoted (R : TokenReader τ) {cs rest : List Char} (hne : cs ≠ [])
    (hrest : ∀ d ∈ rest.head?, d ≠ '"') :
    R.read? ('"' :: (doubleQuotes cs ++ '"' :: rest)) = some (R.quoted cs, rest) := by
  rw [read?, if_neg (by decide), if_pos rfl, quotedBody?_doubleQuotes cs hrest, Option.bind_some,
    if_neg hne]

/-- Wherever the piece stands in front of nothing or a character that ends a token, it is cut into
these tokens, or nothing is. -/
def Cuts (R : TokenReader τ) (cs : List Char) (ts? : Option (List τ)) : Prop :=
  ∀ rest, Ends rest → R.tokens? (cs ++ rest) = inFront ts? (R.tokens? rest)

namespace Cuts

variable {a b : List Char} {u v : Option (List τ)}

/-- A piece alone is cut into its tokens. -/
theorem alone (h : R.Cuts a u) : R.tokens? a = u := by
  have hnil := h [] nofun
  rw [List.append_nil, R.tokens?_nil] at hnil
  rw [hnil]
  cases u <;> simp

theorem append (ha : R.Cuts a u) (hb : R.Cuts b v) (h : Ends b) :
    R.Cuts (a ++ b) (inFront u v) := by
  intro rest hrest
  rw [List.append_assoc, ha (b ++ rest) (h.append hrest), hb rest hrest, inFront_assoc]

theorem blank (hb : R.Cuts b v) : R.Cuts (' ' :: b) v := by
  intro rest hrest
  rw [List.cons_append, R.tokens?_space (by decide), hb rest hrest]

/-- Two pieces with a blank between them. -/
theorem spaced (ha : R.Cuts a u) (hb : R.Cuts b v) : R.Cuts (a ++ ' ' :: b) (inFront u v) :=
  ha.append hb.blank (by simp [Ends])

/-- A token of one character in front of a piece. -/
theorem sign {c : Char} {t : τ} (hc : isSpace c = false)
    (ht : ∀ cs, R.read? (c :: cs) = some (t, cs)) (hb : R.Cuts b v) :
    R.Cuts (c :: b) (inFront (some [t]) v) := by
  intro rest hrest
  rw [List.cons_append, R.tokens?_cons hc (ht (b ++ rest)), hb rest hrest, inFront_assoc]
  rfl

/-- Two pieces with a comma and a blank between them. -/
theorem comma {t : τ} (ht : ∀ cs, R.read? (',' :: cs) = some (t, cs)) (ha : R.Cuts a u)
    (hb : R.Cuts b v) : R.Cuts (a ++ ',' :: ' ' :: b) (inFront u (inFront (some [t]) v)) :=
  ha.append (sign (by decide) ht hb.blank) (by simp [Ends])

end Cuts

theorem cuts_nil : R.Cuts [] (some []) := by
  intro rest _
  cases h : R.tokens? rest <;> simp [h]

/-- A piece that is read as one token. -/
theorem cuts_token {c : Char} {cs : List Char} {t : τ} (hc : isSpace c = false)
    (h : ∀ rest, Ends rest → R.read? (c :: (cs ++ rest)) = some (t, rest)) :
    R.Cuts (c :: cs) (some [t]) :=
  fun rest hrest => R.tokens?_cons hc (h rest hrest)

theorem cuts_word {c : Char} {w : List Char} (hc : isWordStart c = true)
    (hw : w.all isWordChar = true) : R.Cuts (c :: w) (some [R.word (c :: w)]) :=
  cuts_token (isSpace_of_isWordStart hc) fun _ hrest =>
    R.read?_word hc (List.all_eq_true.1 hw) (hrest.not_mem_class (by decide))

/-- A plain name that does not begin with a digit is written bare, as a word. -/
theorem cuts_plainName {s : String} (hplain : isPlain s.toList = true)
    (hdigit : ∀ c ∈ s.toList.head?, c.isDigit = false) :
    R.Cuts (quoteName s).toList (some [R.word s.toList]) := by
  obtain ⟨c, w, hs, hstart, hw⟩ := exists_word_of_isPlain hplain hdigit
  rw [quoteName, if_pos hplain, hs]
  exact cuts_word hstart hw

/-- A name that is not plain is written between double quotes. -/
theorem cuts_quotedName {s : String} (hplain : ¬ isPlain s.toList = true) (hne : s.toList ≠ []) :
    R.Cuts (quoteName s).toList (some [R.quoted s.toList]) := by
  rw [toList_quoteName_of_not_isPlain hplain, List.cons_append]
  refine cuts_token (by decide) fun rest hrest => ?_
  rw [List.append_assoc, List.singleton_append]
  exact R.read?_quoted hne (hrest.ne (by decide))

end TokenReader

end EntityQuery.Sql
