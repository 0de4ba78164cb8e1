import EntityQuery.Proofs.Sql.Like

/-!
# The rules of LIKE

`Likes` gives the rules by which a text matches a pattern, and `LoneEscape` the patterns that break
them: those that end in an escape character with nothing behind it. `like?` decides the rules
(`like?_eq_some_iff`). A needle is escaped in one pass, which comes to guarding the backslashes
first and then the two wildcards (`escapeLikeChars_eq_guardChar`). The pattern of a test with a
needle keeps to the rules and is matched by the texts that pass the test, whatever characters the
two are made of (`likes_likePattern_iff`).
-/

namespace EntityQuery.Sql

/-- A text matches a pattern: a percent sign stands for any run of characters, an underscore for any
one, and an escape character for the one behind it. -/
inductive Likes (escape : Char) : List Char → List Char → Prop where
  | nil : Likes escape [] []
  | anyText (run : List Char) {p cs : List Char} :
    '%' ≠ escape → Likes escape p cs → Likes escape ('%' :: p) (run ++ cs)
  | anyChar (c : Char) {p cs : List Char} :
    '_' ≠ escape → Likes escape p cs → Likes escape ('_' :: p) (c :: cs)
  | escaped (c : Char) {p cs : List Char} :
    Likes escape p cs → Likes escape (escape :: c :: p) (c :: cs)
  | char (c : Char) {p cs : List Char} :
    c ∉ [escape, '%', '_'] → Likes escape p cs → Likes escape (c :: p) (c :: cs)

/-- Read from the front, the pattern ends in an escape character that escapes nothing. -/
inductive LoneEscape (escape : Char) : List Char → Prop where
  | last : LoneEscape escape [escape]
  | escaped (c : Char) {p : List Char} : LoneEscape escape p → LoneEscape escape (escape :: c :: p)
  | char {c : Char} {p : List Char} :
    c ≠ escape → LoneEscape escape p → LoneEscape escape (c :: p)

/-! ## The matcher decides the rules -/

section Rules

variable {escape c : Char} {p : List Char} {is : List LikeItem}

theorem likes_nil_iff (cs : List Char) : Likes escape [] cs ↔ likeHolds [] cs = true := by
  rw [likeHolds, List.isEmpty_iff]
  constructor
  · rintro ⟨⟩
    rfl
  · rintro rfl
    exact .nil

/-- A character that is not escaped is matched as its item is. -/
theorem likes_cons_iff (hc : c ≠ escape)
    (h : ∀ cs, Likes escape p cs ↔ likeHolds is cs = true) (cs : List Char) :
    Likes escape (c :: p) cs ↔ likeHolds (.ofChar c :: is) cs = true := by
  unfold LikeItem.ofChar
  split
  · subst c
    rw [likeHolds, someSuffix_eq_true]
    constructor
    · intro hlikes
      cases hlikes with
      | anyText run _ hrest => exact ⟨_, List.suffix_append run _, (h _).1 hrest⟩
      | escaped => exact absurd rfl hc
      | char _ hplain => simp at hplain
    · rintro ⟨s, ⟨run, rfl⟩, hs⟩
      exact .anyText run hc ((h s).2 hs)
  · rename_i hpercent
    split
    · subst c
      constructor
      · intro hlikes
        cases hlikes with
        | anyChar d _ hrest => exact (h _).1 hrest
        | escaped => exact absurd rfl hc
        | char _ hplain => simp at hplain
      · intro hholds
        cases cs with
        | nil => cases hholds
        | cons d cs => exact .anyChar d hc ((h cs).2 hholds)
    · rename_i hunderscore
      constructor
      · intro hlikes
        cases hlikes with
        | anyText => exact absurd rfl hpercent
        | anyChar => exact absurd rfl hunderscore
        | escaped => exact absurd rfl hc
        | char _ _ hrest =>
          rw [likeHolds, beq_self_eq_true, Bool.true_and]
          exact (h _).1 hrest
      · intro hholds
        cases cs with
        | nil => cases hholds
        | cons d cs =>
          rw [likeHolds, Bool.and_eq_true, beq_iff_eq] at hholds
          obtain ⟨rfl, hrest⟩ := hholds
          have hplain : c ∉ [escape, '%', '_'] := by simp [hc, hpercent, hunderscore]
          exact .char c hplain ((h cs).2 hrest)

/-- An escaped character is matched by itself. -/
theorem likes_escaped_iff (c : Char) (h : ∀ cs, Likes escape p cs ↔ likeHolds is cs = true)
    (cs : List Char) :
    Likes escape (escape :: c :: p) cs ↔ likeHolds (.char c :: is) cs = true := by
  constructor
  · intro hlikes
    cases hlikes with
    | anyText _ hne => exact absurd rfl hne
    | anyChar _ hne => exact absurd rfl hne
    | escaped _ hrest =>
      rw [likeHolds, beq_self_eq_true, Bool.true_and]
      exact (h _).1 hrest
    | char _ hplain => simp at hplain
  · intro hholds
    cases cs with
    | nil => cases hholds
    | cons d cs =>
      rw [likeHolds, Bool.and_eq_true, beq_iff_eq] at hholds
      obtain ⟨rfl, hrest⟩ := hholds
      exact .escaped c ((h cs).2 hrest)

/-- The items of a pattern match what the rules say. -/
theorem likes_iff_likeHolds (h : likeItems? escape p = some is) (cs : List Char) :
    Likes escape p cs ↔ likeHolds is cs = true := by
  fun_induction likeItems? escape p generalizing is cs with
  | case1 =>
    cases h
    exact likes_nil_iff cs
  | case2 => cases h
  | case3 c hc =>
    cases h
    exact likes_cons_iff hc likes_nil_iff cs
  | case4 c p ih =>
    obtain ⟨js, hjs, rfl⟩ := Option.map_eq_some_iff.1 h
    exact likes_escaped_iff c (ih hjs) cs
  | case5 c d p hc ih =>
    obtain ⟨js, hjs, rfl⟩ := Option.map_eq_some_iff.1 h
    exact likes_cons_iff hc (ih hjs) cs

/-- Only a lone escape character keeps a pattern from being read. -/
theorem likeItems?_eq_none_iff : likeItems? escape p = none ↔ LoneEscape escape p := by
  fun_induction likeItems? escape p with
  | case1 => exact ⟨nofun, nofun⟩
  | case2 => exact ⟨fun _ => .last, fun _ => rfl⟩
  | case3 c hc =>
    refine ⟨nofun, fun h => ?_⟩
    cases h with
    | last => exact absurd rfl hc
    | char _ h => cases h
  | case4 c p ih =>
    rw [Option.map_eq_none_iff, ih]
    refine ⟨.escaped c, fun h => ?_⟩
    cases h with
    | escaped _ h => exact h
    | char hne => exact absurd rfl hne
  | case5 c d p hc ih =>
    rw [Option.map_eq_none_iff, ih]
    refine ⟨.char hc, fun h => ?_⟩
    cases h with
    | escaped => exact absurd rfl hc
    | char _ h => exact h

end Rules

/-- `like?` has a verdict on patterns without a lone escape character, and it is that of the
rules. -/
theorem like?_eq_some_iff {escape : Char} {pattern text : String} {b : Bool} :
    like? escape pattern text = some b ↔
      ¬ LoneEscape escape pattern.toList ∧
        (b = true ↔ Likes escape pattern.toList text.toList) := by
  rw [like?, ← likeItems?_eq_none_iff]
  cases his : likeItems? escape pattern.toList with
  | none =>
    constructor
    · intro h
      cases h
    · exact fun h => absurd rfl h.1
  | some is =>
    rw [Option.map_some, Option.some.injEq, likes_iff_likeHolds his]
    constructor
    · rintro rfl
      exact ⟨Option.some_ne_none is, Iff.rfl⟩
    · exact fun h => Bool.eq_iff_iff.2 h.2.symm

/-! ## One pass for three -/

/-- The characters with a backslash in front of each `c`. -/
def guardChar (c : Char) (cs : List Char) : List Char :=
  cs.flatMap fun d => if d = c then ['\\', c] else [d]

theorem guardChar_append (c : Char) (a b : List Char) :
    guardChar c (a ++ b) = guardChar c a ++ guardChar c b := List.flatMap_append

/-- No guard escapes a backslash that another one has put in, for the backslashes come first. -/
theorem escapeLikeChars_eq_guardChar (cs : List Char) :
    escapeLikeChars cs = guardChar '_' (guardChar '%' (guardChar '\\' cs)) := by
  induction cs with
  | nil => rfl
  | cons c cs ih =>
    have hfirst : guardChar '_' (guardChar '%' (guardChar '\\' [c])) = escapeLikeChars [c] := by
      by_cases hslash : c = '\\'
      · subst c
        decide
      by_cases hpercent : c = '%'
      · subst c
        decide
      by_cases hunderscore : c = '_'
      · subst c
        decide
      · simp [guardChar, escapeLikeChars, hslash, hpercent, hunderscore]
    have hcons : escapeLikeChars (c :: cs) = escapeLikeChars [c] ++ escapeLikeChars cs := by
      simp only [escapeLikeChars]
      split <;> rfl
    rw [hcons, ih, ← hfirst, ← guardChar_append, ← guardChar_append, ← guardChar_append,
      List.singleton_append]

/-! ## Patterns of needles -/

/-- A needle is escaped by a backslash in front of each backslash, then of each percent sign, then
of each underscore. The pattern that a test makes of it ends in no lone escape character, and a text
matches the pattern exactly if it passes the test. -/
theorem likes_likePattern_iff (t : TextTest) (text needle : String) :
    (escapeLike needle).toList =
        guardChar '_' (guardChar '%' (guardChar '\\' needle.toList)) ∧
      (Likes '\\' (likePattern t needle).toList text.toList ↔ t.holds text needle = true) ∧
      ¬ LoneEscape '\\' (likePattern t needle).toList := by
  have hescape : (escapeLike needle).toList = escapeLikeChars needle.toList :=
    String.toList_ofList
  obtain ⟨hwhole, hverdict⟩ := like?_eq_some_iff.1 (like?_likePattern t text needle)
  exact ⟨hescape.trans (escapeLikeChars_eq_guardChar _), hverdict.symm, hwhole⟩

end EntityQuery.Sql
