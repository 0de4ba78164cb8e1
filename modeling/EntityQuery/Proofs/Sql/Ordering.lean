import EntityQuery.Proofs.Sql.Agreement

/-!
# Reading ORDER BY clauses

How a database reads an ORDER BY clause and in which order it then puts two rows. A key of a clause
is the name of a column, bare or in double quotes, or the position of a column in the list of those
selected; behind it stand a direction and a place for nulls. `OrderClause.ofText?` reads a text and
`OrderClause.compare?` compares two rows. A name is cut as it was written (`cuts_quoteName`),
but a bare one is read as a column only if it is no reserved word and does not begin with a digit
(`isSortColumn_of_nameTokens?`).
-/

namespace EntityQuery.Sql

/-! ## Tokens -/

inductive OrderToken where
  /-- A word without quotes, in lower case. -/
  | word (s : String)
  | quoted (s : String)
  | number (n : Nat)
  | comma
  deriving DecidableEq, Repr

/-- A number or a comma at the front. -/
def OrderToken.other? : List Char → Option (OrderToken × List Char)
  | [] => none
  | c :: cs =>
    if c.isDigit then
      some (.number (Decimal.digitsValue (c :: cs.takeWhile Char.isDigit)),
        cs.dropWhile Char.isDigit)
    else if c = ',' then some (.comma, cs)
    else none

theorem OrderToken.length_other? {cs : List Char} {r : OrderToken × List Char}
    (h : OrderToken.other? cs = some r) : r.2.length < cs.length := by
  cases cs with
  | nil => cases h
  | cons c cs =>
    simp only [OrderToken.other?] at h
    split at h
    · obtain rfl := Option.some.inj h
      exact Nat.lt_succ_of_le (length_dropWhile_le _ cs)
    split at h
    · obtain rfl := Option.some.inj h
      exact Nat.lt_succ_self _
    · cases h

/-- How an ORDER BY clause is cut. -/
def OrderToken.reader : TokenReader OrderToken where
  word w := .word (String.ofList (w.map Char.toLower))
  quoted s := .quoted (String.ofList s)
  other? := OrderToken.other?
  shortens := OrderToken.length_other?

/-! ## Clauses -/

/-- What a key of a clause sorts by. -/
inductive OrderTarget where
  | column (name : String)
  /-- The column at a place in the list of those selected, counted from one. -/
  | position (n : Nat)
  deriving DecidableEq, Repr

structure OrderItem where
  target : OrderTarget
  direction : SortDirection
  nullsFirst : Bool
  deriving DecidableEq, Repr

abbrev OrderClause := List OrderItem

/-- The words that are no names of columns, unless they are quoted. -/
def reservedWords : List String :=
  ["all", "analyse", "analyze", "and", "any", "array", "as", "asc", "asymmetric", "authorization",
   "binary", "both", "case", "cast", "check", "collate", "collation", "column", "concurrently",
   "constraint", "create", "cross", "current_catalog", "current_date", "current_role",
   "current_schema", "current_time", "current_timestamp", "current_user", "default", "deferrable",
   "desc", "distinct", "do", "else", "end", "except", "false", "fetch", "for", "foreign", "freeze",
   "from", "full", "grant", "group", "having", "ilike", "in", "initially", "inner", "intersect",
   "into", "is", "isnull", "join", "lateral", "leading", "left", "like", "limit", "localtime",
   "localtimestamp", "natural", "not", "notnull", "null", "offset", "on", "only", "or", "order",
   "outer", "overlaps", "placing", "primary", "references", "returning", "right", "select",
   "session_user", "similar", "some", "symmetric", "system_user", "table", "tablesample", "then",
   "to", "trailing", "true", "union", "unique", "user", "using", "variadic", "verbose", "when",
   "where", "window", "with"]

def OrderTarget.ofToken? : OrderToken → Option OrderTarget
  | .word s => if s ∈ reservedWords then none else some (.column s)
  | .quoted s => some (.column s)
  | .number n => some (.position n)
  | .comma => none

/-- The direction at the front, ascending if there is none, and the rest. -/
def directionOf : List OrderToken → SortDirection × List OrderToken
  | .word "asc" :: ts => (.asc, ts)
  | .word "desc" :: ts => (.desc, ts)
  | ts => (.asc, ts)

/-- Do nulls come first? Where nothing is said they count as greater than all else. -/
def nullsFirst? (d : SortDirection) : List OrderToken → Option Bool
  | [] => some (d = .desc)
  | [.word "nulls", .word "first"] => some true
  | [.word "nulls", .word "last"] => some false
  | _ => none

def OrderItem.ofTokens? : List OrderToken → Option OrderItem
  | [] => none
  | t :: ts => do
    let target ← OrderTarget.ofToken? t
    let (direction, rest) := directionOf ts
    let nullsFirst ← nullsFirst? direction rest
    pure ⟨target, direction, nullsFirst⟩

namespace OrderClause

/-- The keys of a clause, which stand between commas. Without a text there are none. -/
def ofText? (s : String) : Option OrderClause :=
  match OrderToken.reader.tokens? s.toList with
  | none => none
  | some [] => some []
  | some ts => (ts.splitOn .comma).mapM OrderItem.ofTokens?

end OrderClause

/-! ## The order of rows -/

/-- The value that a key of a clause sorts a row by, given the list of selected columns. -/
def OrderTarget.value? (selected : List String) (row : Row) : OrderTarget → Option Value
  | column name => (row name).map Prod.snd
  | position 0 => none
  | position (n + 1) => selected[n]?.bind fun name => (row name).map Prod.snd

/-- The order of two values by a key. A database has none for values of different types. -/
def OrderItem.compare? (i : OrderItem) (v w : Value) : Option Ordering :=
  match v.isNull, w.isNull with
  | true, true => some .eq
  | true, false => some (if i.nullsFirst then .lt else .gt)
  | false, true => some (if i.nullsFirst then .gt else .lt)
  | false, false => (v.compare w).map i.direction.apply

/-- The order of two rows: the first key that tells them apart decides. -/
def OrderClause.compare? (selected : List String) (row row' : Row) :
    OrderClause → Option Ordering
  | [] => some .eq
  | i :: is => do
    let v ← i.target.value? selected row
    let w ← i.target.value? selected row'
    let o ← i.compare? v w
    let rest ← OrderClause.compare? selected row row' is
    pure (o.then rest)

example : OrderClause.ofText? "\"Net size\" DESC, name, 2 nulls LAST" =
    some [⟨.column "Net size", .desc, true⟩, ⟨.column "name", .asc, false⟩,
      ⟨.position 2, .asc, false⟩] := by
  decide +kernel

/-! ## Names in a clause -/

/-- A name that stands for a column in an ORDER BY clause. Bare, it must not be a reserved word,
and it must not begin with a digit. -/
structure IsSortColumn (s : String) : Prop where
  nonempty : s.toList ≠ []
  bare : isPlain s.toList = true → s ∉ reservedWords ∧ ∀ c ∈ s.toList.head?, c.isDigit = false

theorem isSortColumn_iff {s : String} :
    IsSortColumn s ↔ s.toList ≠ [] ∧ (isPlain s.toList = true →
      s ∉ reservedWords ∧ s.toList.head?.any Char.isDigit = false) := by
  have hdigit : (∀ c ∈ s.toList.head?, c.isDigit = false) ↔
      s.toList.head?.any Char.isDigit = false := by
    rw [Option.any_eq_false]
    simp only [Option.mem_def]
  exact ⟨fun ⟨hne, hbare⟩ => ⟨hne, fun hp => (hbare hp).imp_right hdigit.1⟩,
    fun ⟨hne, hbare⟩ => ⟨hne, fun hp => (hbare hp).imp_right hdigit.2⟩⟩

instance (s : String) : Decidable (IsSortColumn s) := decidable_of_iff' _ isSortColumn_iff

/-- The tokens of a name that is made of digits in front and of a word behind them. -/
def numberTokens (digits word : List Char) : List OrderToken :=
  .number (Decimal.digitsValue digits) ::
    if word = [] then [] else [.word (String.ofList (word.map Char.toLower))]

/-- The tokens of a name as it is written. An empty name has none. -/
def nameTokens? (s : String) : Option (List OrderToken) :=
  if s.toList = [] then none
  else if isPlain s.toList = false then some [.quoted s]
  else if s.toList.head?.any Char.isDigit then
    some (numberTokens (s.toList.takeWhile Char.isDigit) (s.toList.dropWhile Char.isDigit))
  else some [.word s]

/-- What ends a token is not taken with the characters of a class without it. -/
theorem span_append_of_ends {p : Char → Bool} (hp : [' ', '(', ')', ','].all (fun c => !p c) = true)
    (cs : List Char) {rest : List Char} (h : Ends rest) :
    (cs ++ rest).takeWhile p = cs.takeWhile p ∧
      (cs ++ rest).dropWhile p = cs.dropWhile p ++ rest := by
  induction cs with
  | nil => exact takeWhile_append_of_ends (w := []) rfl hp h
  | cons c cs ih =>
    rw [List.cons_append, List.takeWhile_cons, List.takeWhile_cons, List.dropWhile_cons,
      List.dropWhile_cons, ih.1, ih.2]
    split <;> exact ⟨rfl, rfl⟩

/-- Behind the digits at the front of a plain name stands a word, or nothing. -/
theorem cuts_number {cs : List Char} (hplain : isPlain cs = true)
    (hdigit : cs.head?.any Char.isDigit = true) :
    OrderToken.reader.Cuts cs
      (some (numberTokens (cs.takeWhile Char.isDigit) (cs.dropWhile Char.isDigit))) := by
  obtain ⟨d, ds, rfl⟩ := List.exists_cons_of_ne_nil (l := cs) (by rintro rfl; cases hdigit)
  have hd : d.isDigit = true := hdigit
  obtain ⟨hspace, hstart⟩ := isSpace_isWordStart_of_isDigit hd
  have hquote : d ≠ '"' := by
    rintro rfl
    exact absurd hd (by decide)
  rw [isPlain, Bool.and_eq_true] at hplain
  intro rest hrest
  obtain ⟨htake, hdrop⟩ := span_append_of_ends (p := Char.isDigit) (by decide) ds hrest
  have htoken : OrderToken.reader.read? (d :: (ds ++ rest)) =
      some (.number (Decimal.digitsValue (d :: ds.takeWhile Char.isDigit)),
        ds.dropWhile Char.isDigit ++ rest) := by
    rw [TokenReader.read?, if_neg (Bool.eq_false_iff.1 hstart), if_neg hquote]
    show OrderToken.other? (d :: (ds ++ rest)) = _
    rw [OrderToken.other?, if_pos hd, htake, hdrop]
  rw [List.takeWhile_cons_of_pos hd, List.dropWhile_cons_of_pos hd, List.cons_append,
    OrderToken.reader.tokens?_cons hspace htoken, numberTokens]
  cases hword : ds.dropWhile Char.isDigit with
  | nil =>
    rw [if_pos rfl, List.nil_append]
    rfl
  | cons c w =>
    have hc : c.isDigit = false := by
      have hhead := List.head?_dropWhile_not Char.isDigit ds
      rwa [hword] at hhead
    have hmem : ∀ e ∈ c :: w, (e.isLower || e.isDigit || e == '_') = true := fun e he =>
      List.all_eq_true.1 hplain.2 e <| List.mem_cons_of_mem d <|
        (List.dropWhile_sublist _).subset (hword ▸ he)
    have hstart : isWordStart c = true := isWordStart_of_plain (hmem c List.mem_cons_self) hc
    have hchars : w.all isWordChar = true :=
      List.all_eq_true.2 fun e he => isWordChar_of_plain (hmem e (List.mem_cons_of_mem c he))
    rw [if_neg (List.cons_ne_nil c w), TokenReader.cuts_word hstart hchars rest hrest]
    exact (inFront_assoc (some [_]) (some [_]) _).symm

/-- An empty name is written as two quotes, which nothing can be cut from. -/
theorem cuts_emptyName {s : String} (h : s.toList = []) :
    OrderToken.reader.Cuts (quoteName s).toList none := by
  have htext : (quoteName s).toList = ['"', '"'] := by
    rw [quoteName, h, if_neg (by decide)]
    rfl
  rw [htext]
  intro rest hrest
  refine OrderToken.reader.tokens?_of_none (by decide) ?_
  rw [List.append_eq, TokenReader.read?, if_neg (by decide), if_pos rfl, List.cons_append,
    List.nil_append, quotedBody?_close (hrest.ne (by decide)), Option.bind_some, if_pos rfl]

theorem cuts_quoteName (s : String) :
    OrderToken.reader.Cuts (quoteName s).toList (nameTokens? s) := by
  by_cases hempty : s.toList = []
  · rw [nameTokens?, if_pos hempty]
    exact cuts_emptyName hempty
  by_cases hplain : isPlain s.toList = true
  · rw [nameTokens?, if_neg hempty, if_neg (Bool.not_eq_false _ ▸ hplain)]
    by_cases hdigit : s.toList.head?.any Char.isDigit = true
    · rw [if_pos hdigit, quoteName, if_pos hplain]
      exact cuts_number hplain hdigit
    · have hhead : ∀ c ∈ s.toList.head?, c.isDigit = false := by
        intro c hc
        rw [hc] at hdigit
        exact Bool.eq_false_iff.2 hdigit
      have hword : OrderToken.reader.word s.toList = .word s := by
        show OrderToken.word (String.ofList (s.toList.map Char.toLower)) = .word s
        rw [map_toLower_of_isPlain hplain, String.ofList_toList]
      rw [if_neg hdigit, ← hword]
      exact TokenReader.cuts_plainName hplain hhead
  · have hname : OrderToken.reader.quoted s.toList = .quoted s :=
      congrArg OrderToken.quoted String.ofList_toList
    rw [nameTokens?, if_neg hempty, if_pos (Bool.eq_false_iff.2 hplain), ← hname]
    exact TokenReader.cuts_quotedName hplain hempty

theorem comma_notMem_nameTokens? {s : String} {ts : List OrderToken}
    (h : nameTokens? s = some ts) : OrderToken.comma ∉ ts := by
  unfold nameTokens? numberTokens at h
  split at h
  · cases h
  split at h
  · obtain rfl := Option.some.inj h
    simp
  split at h
  · obtain rfl := Option.some.inj h
    split <;> simp
  · obtain rfl := Option.some.inj h
    simp

theorem nameTokens?_of_isSortColumn {s : String} (h : IsSortColumn s) :
    ∃ t, nameTokens? s = some [t] ∧ OrderTarget.ofToken? t = some (.column s) := by
  rw [nameTokens?, if_neg h.nonempty]
  by_cases hplain : isPlain s.toList = true
  · obtain ⟨hword, hdigit⟩ := h.bare hplain
    have hhead : ¬ s.toList.head?.any Char.isDigit = true := by
      intro hany
      obtain ⟨c, hc, hcdigit⟩ := (Option.any_eq_true _ _).1 hany
      exact Bool.eq_false_iff.1 (hdigit c hc) hcdigit
    rw [if_neg (Bool.not_eq_false _ ▸ hplain), if_neg hhead]
    exact ⟨.word s, rfl, if_neg hword⟩
  · rw [if_pos (Bool.eq_false_iff.2 hplain)]
    exact ⟨.quoted s, rfl, rfl⟩

theorem nameTokens?_ne_nil (s : String) : nameTokens? s ≠ some [] := by
  unfold nameTokens? numberTokens
  split
  · simp
  split
  · simp
  split <;> simp

theorem isSortColumn_of_nameTokens? {s : String} {t : OrderToken} {ts : List OrderToken}
    (h : nameTokens? s = some (t :: ts)) (ht : OrderTarget.ofToken? t = some (.column s)) :
    IsSortColumn s := by
  unfold nameTokens? at h
  split at h
  · cases h
  rename_i hempty
  split at h
  · rename_i hplain
    exact ⟨hempty, fun hp => absurd hp (Bool.eq_false_iff.1 hplain)⟩
  split at h
  · -- A number in front is taken for a position.
    obtain ⟨rfl, -⟩ := List.cons_eq_cons.1 (Option.some.inj h)
    cases ht
  · rename_i hhead
    obtain ⟨rfl, -⟩ := List.cons_eq_cons.1 (Option.some.inj h)
    have hword : s ∉ reservedWords := by
      intro hmem
      rw [OrderTarget.ofToken?, if_pos hmem] at ht
      cases ht
    refine ⟨hempty, fun _ => ⟨hword, fun c hc => ?_⟩⟩
    rw [hc] at hhead
    exact Bool.eq_false_iff.2 hhead

/-- What a key is read as sorts by its first token. -/
theorem ofToken?_of_ofTokens? {t : OrderToken} {ts : List OrderToken} {i : OrderItem}
    (h : OrderItem.ofTokens? (t :: ts) = some i) : OrderTarget.ofToken? t = some i.target := by
  obtain ⟨target, htarget, h⟩ := Option.bind_eq_some_iff.1 h
  obtain ⟨nulls, -, h⟩ := Option.bind_eq_some_iff.1 h
  obtain rfl := Option.some.inj h
  exact htarget

end EntityQuery.Sql
