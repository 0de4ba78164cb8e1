import EntityQuery.Sql.Like

/-!
# What LIKE matches

A pattern is a list of items: any text, any one character, or a certain character, which may stand
behind the escape character. `like?` says whether a text matches; a pattern that ends in a lone
escape character is an error. The pattern of a test with a needle matches the texts that pass the
test (`like?_likePattern`).
-/

namespace EntityQuery.Sql

inductive LikeItem where
  | anyText
  | anyChar
  | char (c : Char)
  deriving DecidableEq, Repr

/-- What a character stands for that is not escaped. -/
def LikeItem.ofChar (c : Char) : LikeItem :=
  if c = '%' then anyText else if c = '_' then anyChar else char c

def likeItems? (escape : Char) : List Char → Option (List LikeItem)
  | [] => some []
  | [c] => if c = escape then none else some [.ofChar c]
  | c :: d :: cs =>
    if c = escape then (likeItems? escape cs).map (.char d :: ·)
    else (likeItems? escape (d :: cs)).map (.ofChar c :: ·)

/-- Does a suffix have a property? -/
def someSuffix (p : List Char → Bool) : List Char → Bool
  | [] => p []
  | c :: cs => p (c :: cs) || someSuffix p cs

/-- Do the items match the whole text? -/
def likeHolds : List LikeItem → List Char → Bool
  | [], cs => cs.isEmpty
  | .anyText :: is, cs => someSuffix (likeHolds is) cs
  | .anyChar :: _, [] => false
  | .anyChar :: is, _ :: cs => likeHolds is cs
  | .char _ :: _, [] => false
  | .char c :: is, d :: cs => c == d && likeHolds is cs

def like? (escape : Char) (pattern text : String) : Option Bool :=
  (likeItems? escape pattern.toList).map fun is => likeHolds is text.toList

/-! ## Reading escaped texts -/

theorem likeItems?_cons {escape c : Char} (hc : c ≠ escape) (cs : List Char) :
    likeItems? escape (c :: cs) = (likeItems? escape cs).map (.ofChar c :: ·) := by
  cases cs with
  | nil => simp only [likeItems?, if_neg hc, Option.map_some]
  | cons d cs => rw [likeItems?, if_neg hc]

/-- An escaped text stands for its characters. -/
theorem likeItems?_escapeLikeChars (cs rest : List Char) :
    likeItems? '\\' (escapeLikeChars cs ++ rest) =
      (likeItems? '\\' rest).map (cs.map .char ++ ·) := by
  induction cs with
  | nil =>
    rw [escapeLikeChars, List.nil_append]
    exact Option.map_id'.symm
  | cons c cs ih =>
    unfold escapeLikeChars
    by_cases hc : c = '\\' ∨ c = '%' ∨ c = '_'
    · rw [if_pos hc, List.cons_append, List.cons_append, likeItems?, if_pos rfl, ih, Option.map_map]
      rfl
    · rw [not_or, not_or] at hc
      obtain ⟨hslash, hpercent, hunderscore⟩ := hc
      have hchar : LikeItem.ofChar c = .char c := by
        rw [LikeItem.ofChar, if_neg hpercent, if_neg hunderscore]
      rw [if_neg (by simp [hslash, hpercent, hunderscore]), List.cons_append,
        likeItems?_cons hslash, ih, Option.map_map, hchar]
      rfl

/-! ## Matching -/

theorem someSuffix_eq_true {p : List Char → Bool} {cs : List Char} :
    someSuffix p cs = true ↔ ∃ s, s <:+ cs ∧ p s = true := by
  induction cs with
  | nil =>
    constructor
    · exact fun h => ⟨[], List.suffix_refl [], h⟩
    · rintro ⟨s, hs, hp⟩
      rwa [List.suffix_nil.1 hs] at hp
  | cons c cs ih =>
    rw [someSuffix, Bool.or_eq_true, ih]
    constructor
    · rintro (h | ⟨s, hs, hp⟩)
      · exact ⟨c :: cs, List.suffix_refl _, h⟩
      · exact ⟨s, hs.trans (List.suffix_cons c cs), hp⟩
    · rintro ⟨s, hs, hp⟩
      rcases List.suffix_cons_iff.1 hs with rfl | hs
      · exact .inl hp
      · exact .inr ⟨s, hs, hp⟩

theorem likeHolds_anyText (cs : List Char) : likeHolds [.anyText] cs = true :=
  someSuffix_eq_true.2 ⟨[], List.nil_suffix, rfl⟩

/-- Certain characters match a text that begins with them. -/
theorem likeHolds_chars (cs : List Char) (is : List LikeItem) (text : List Char) :
    likeHolds (cs.map .char ++ is) text =
      (cs.isPrefixOf text && likeHolds is (text.drop cs.length)) := by
  induction cs generalizing text with
  | nil => rfl
  | cons c cs ih =>
    cases text with
    | nil => rfl
    | cons d text =>
      rw [List.map_cons, List.cons_append, likeHolds, ih, List.isPrefixOf, List.length_cons,
        List.drop_succ_cons, Bool.and_assoc]

theorem occurs_eq_someSuffix (needle text : List Char) :
    TextTest.occurs needle text = someSuffix (fun s => needle.isPrefixOf s) text := by
  induction text with
  | nil => cases needle <;> rfl
  | cons c text ih => rw [TextTest.occurs, someSuffix, ih]

/-- Nothing but certain characters up to the end is a suffix. -/
theorem someSuffix_eq_isSuffixOf (needle text : List Char) :
    someSuffix (fun s => needle.isPrefixOf s && (s.drop needle.length).isEmpty) text =
      needle.isSuffixOf text := by
  have hwhole : ∀ s : List Char,
      (needle.isPrefixOf s && (s.drop needle.length).isEmpty) = true ↔ s = needle := by
    intro s
    rw [Bool.and_eq_true, List.isPrefixOf_iff_prefix, List.isEmpty_iff]
    constructor
    · rintro ⟨⟨rest, rfl⟩, hdrop⟩
      rw [List.drop_left] at hdrop
      rw [hdrop, List.append_nil]
    · rintro rfl
      exact ⟨List.prefix_refl _, List.drop_length⟩
  rw [Bool.eq_iff_iff, someSuffix_eq_true, List.isSuffixOf_iff_suffix]
  constructor
  · rintro ⟨s, hs, hp⟩
    rwa [(hwhole s).1 hp] at hs
  · exact fun h => ⟨needle, h, (hwhole needle).2 rfl⟩

/-- The pattern of a test is matched by the texts that pass the test. -/
theorem like?_likePattern (t : TextTest) (text needle : String) :
    like? '\\' (likePattern t needle) text = some (t.holds text needle) := by
  have hpercent : likeItems? '\\' ['%'] = some [.anyText] := rfl
  have hchars : ∀ is cs, likeHolds (needle.toList.map .char ++ is) cs =
      (needle.toList.isPrefixOf cs && likeHolds is (cs.drop needle.toList.length)) :=
    likeHolds_chars needle.toList
  cases t with
  | contains =>
    have hpattern : (likePattern .contains needle).toList =
        '%' :: (escapeLikeChars needle.toList ++ ['%']) := by
      simp [likePattern, escapeLike, String.toList_append]
    rw [like?, hpattern, likeItems?_cons (by decide), likeItems?_escapeLikeChars, hpercent]
    show some (someSuffix (likeHolds (needle.toList.map .char ++ [.anyText])) text.toList) = _
    rw [TextTest.holds, occurs_eq_someSuffix]
    congr 2
    funext cs
    rw [hchars, likeHolds_anyText, Bool.and_true]
  | startsWith =>
    have hpattern : (likePattern .startsWith needle).toList =
        escapeLikeChars needle.toList ++ ['%'] := by
      simp [likePattern, escapeLike, String.toList_append]
    rw [like?, hpattern, likeItems?_escapeLikeChars, hpercent]
    show some (likeHolds (needle.toList.map .char ++ [.anyText]) text.toList) = _
    rw [hchars, likeHolds_anyText, Bool.and_true, TextTest.holds]
  | endsWith =>
    have hpattern : (likePattern .endsWith needle).toList =
        '%' :: (escapeLikeChars needle.toList ++ []) := by
      simp [likePattern, escapeLike, String.toList_append]
    rw [like?, hpattern, likeItems?_cons (by decide), likeItems?_escapeLikeChars]
    show some (someSuffix (likeHolds (needle.toList.map .char ++ [])) text.toList) = _
    rw [TextTest.holds, ← someSuffix_eq_isSuffixOf]
    congr 2
    funext cs
    rw [hchars]
    rfl

end EntityQuery.Sql
