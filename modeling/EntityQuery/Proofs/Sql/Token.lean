import EntityQuery.Proofs.RoundTrip.Instant
import EntityQuery.Proofs.Sql.Cutting
import EntityQuery.Sql.Condition

/-!
# Tokens of conditions

The tokens that a database cuts a condition into: words, which are keywords or the names of columns
in any mixture of cases, names in double quotes, numbered placeholders, texts in single quotes and
signs. `Lexes` says of a piece of text that it is cut into certain tokens wherever it ends. The
names and placeholders of conditions are (`lexes_quoteName`, `lexes_placeholderText`).
-/

namespace EntityQuery.Sql

/-! ## Tokens -/

inductive Keyword where
  | andWord
  | orWord
  | notWord
  | inWord
  | isWord
  | nullWord
  | likeWord
  | escapeWord
  | coalesceWord
  | trueWord
  | falseWord
  deriving DecidableEq, Repr

namespace Keyword

def text : Keyword → String
  | andWord => "AND"
  | orWord => "OR"
  | notWord => "NOT"
  | inWord => "IN"
  | isWord => "IS"
  | nullWord => "NULL"
  | likeWord => "LIKE"
  | escapeWord => "ESCAPE"
  | coalesceWord => "COALESCE"
  | trueWord => "TRUE"
  | falseWord => "FALSE"

def every : List Keyword :=
  [andWord, orWord, notWord, inWord, isWord, nullWord, likeWord, escapeWord, coalesceWord,
   trueWord, falseWord]

/-- The keyword that a word is. -/
def ofWord? (w : List Char) : Option Keyword :=
  every.find? fun k => k.text.toList = w.map Char.toUpper

end Keyword

inductive Token where
  | keyword (k : Keyword)
  /-- The name of a column. -/
  | name (s : String)
  | placeholder (n : Nat)
  | text (s : String)
  | compare (c : Comparison)
  | leftParen
  | rightParen
  | comma
  deriving DecidableEq, Repr

/-- A word that is no keyword is a name, in lower case. -/
def Token.ofWord (w : List Char) : Token :=
  match Keyword.ofWord? w with
  | some k => .keyword k
  | none => .name (String.ofList (w.map Char.toLower))

/-- A parenthesis, a comma or a comparison at the front. -/
def sign? : List Char → Option (Token × List Char)
  | '(' :: cs => some (.leftParen, cs)
  | ')' :: cs => some (.rightParen, cs)
  | ',' :: cs => some (.comma, cs)
  | '=' :: cs => some (.compare .eq, cs)
  | '<' :: '>' :: cs => some (.compare .ne, cs)
  | '<' :: '=' :: cs => some (.compare .le, cs)
  | '<' :: cs => some (.compare .lt, cs)
  | '>' :: '=' :: cs => some (.compare .ge, cs)
  | '>' :: cs => some (.compare .gt, cs)
  | _ => none

/-- A placeholder, a text in single quotes or a sign at the front. -/
def Token.other? : List Char → Option (Token × List Char)
  | [] => none
  | c :: cs =>
    if c = '$' then
      if cs.takeWhile Char.isDigit = [] then none
      else some (.placeholder (Decimal.digitsValue (cs.takeWhile Char.isDigit)),
        cs.dropWhile Char.isDigit)
    else if c = '\'' then (quotedBody? '\'' cs).map fun b => (.text (String.ofList b.1), b.2)
    else sign? (c :: cs)

theorem length_sign? {cs : List Char} {r : Token × List Char} (h : sign? cs = some r) :
    r.2.length < cs.length := by
  unfold sign? at h
  split at h
  case h_10 => nomatch h
  all_goals
    obtain rfl := Option.some.inj h
    simp only [List.length_cons]
    omega

theorem Token.length_other? {cs : List Char} {r : Token × List Char}
    (h : Token.other? cs = some r) : r.2.length < cs.length := by
  cases cs with
  | nil => cases h
  | cons c cs =>
    simp only [Token.other?] at h
    split at h
    · split at h
      · cases h
      · obtain rfl := Option.some.inj h
        exact Nat.lt_succ_of_le (length_dropWhile_le _ cs)
    split at h
    · obtain ⟨b, hb, rfl⟩ := Option.map_eq_some_iff.1 h
      exact Nat.lt_succ_of_lt (length_quotedBody? hb)
    · exact length_sign? h

/-- How a condition is cut. -/
def Token.reader : TokenReader Token where
  word := .ofWord
  quoted s := .name (String.ofList s)
  other? := Token.other?
  shortens := Token.length_other?

/-! ## The pieces of conditions -/

/-- Wherever the piece stands in front of nothing or a character that ends a token, it is cut into
these tokens. -/
abbrev Lexes (cs : List Char) (ts : List Token) : Prop := Token.reader.Cuts cs (some ts)

theorem lexes_keyword (k : Keyword) : Lexes k.text.toList [.keyword k] := by
  have hword : Token.ofWord k.text.toList = .keyword k := by cases k <;> decide
  rw [← hword]
  cases k <;> exact TokenReader.cuts_word (by decide) (by decide)

theorem lexes_placeholderText (n : Nat) :
    Lexes (placeholderText n).toList [.placeholder n] := by
  have htext : (placeholderText n).toList = '$' :: Nat.toDigits 10 n := by
    simp [placeholderText, String.toList_append]
  have hdigits : (Nat.toDigits 10 n).all Char.isDigit = true :=
    List.all_eq_true.2 fun c hc => Nat.isDigit_of_mem_toDigits (by decide) (by decide) hc
  rw [htext]
  refine TokenReader.cuts_token (by decide) fun rest hrest => ?_
  obtain ⟨htake, hdrop⟩ := takeWhile_append_of_ends hdigits (by decide) hrest
  show Token.other? ('$' :: (Nat.toDigits 10 n ++ rest)) = _
  rw [Token.other?, if_pos rfl, htake, hdrop, if_neg Nat.toDigits_ne_nil,
    Decimal.digitsValue_toDigits]

theorem lexes_comparisonSymbol (op : Comparison) :
    Lexes (comparisonSymbol op).toList [.compare op] := by
  have htoken : ∀ rest, Ends rest →
      Token.reader.read? ((comparisonSymbol op).toList ++ rest) = some (.compare op, rest) := by
    intro rest hrest
    cases rest with
    | nil => cases op <;> rfl
    | cons c rest =>
      have hgt : c ≠ '>' := hrest.ne (by decide) c rfl
      have heq : c ≠ '=' := hrest.ne (by decide) c rfl
      cases op <;> simp [comparisonSymbol, TokenReader.read?, Token.reader, Token.other?,
        isWordStart, sign?, hgt, heq]
  cases op <;> exact TokenReader.cuts_token (by decide) htoken

/-- A name that stands for a column in a condition. -/
structure IsColumn (s : String) : Prop where
  nonempty : s.toList ≠ []
  notKeyword : Keyword.ofWord? s.toList = none
  noDigit : ∀ c ∈ s.toList.head?, c.isDigit = false

theorem isColumn_iff {s : String} :
    IsColumn s ↔ s.toList ≠ [] ∧ Keyword.ofWord? s.toList = none ∧
      s.toList.head?.all (!Char.isDigit ·) = true := by
  have hdigit : (∀ c ∈ s.toList.head?, c.isDigit = false) ↔
      s.toList.head?.all (!Char.isDigit ·) = true := by
    rw [Option.all_eq_true]
    simp only [Option.mem_def, Bool.not_eq_true']
  exact ⟨fun ⟨hne, hword, hhead⟩ => ⟨hne, hword, hdigit.1 hhead⟩,
    fun ⟨hne, hword, hhead⟩ => ⟨hne, hword, hdigit.2 hhead⟩⟩

instance (s : String) : Decidable (IsColumn s) := decidable_of_iff' _ isColumn_iff

/-- The name of a column is cut as one name, with or without quotes. -/
theorem lexes_quoteName {s : String} (h : IsColumn s) : Lexes (quoteName s).toList [.name s] := by
  by_cases hplain : isPlain s.toList = true
  · have hword : Token.reader.word s.toList = .name s := by
      show Token.ofWord s.toList = .name s
      rw [Token.ofWord, h.notKeyword, map_toLower_of_isPlain hplain, String.ofList_toList]
    rw [← hword]
    exact TokenReader.cuts_plainName hplain h.noDigit
  · have hname : Token.reader.quoted s.toList = .name s :=
      congrArg Token.name String.ofList_toList
    rw [← hname]
    exact TokenReader.cuts_quotedName hplain h.nonempty

/-- The escape character of LIKE. -/
theorem lexes_escape : Lexes ['\'', '\\', '\''] [.text "\\"] := by
  refine TokenReader.cuts_token (by decide) fun rest hrest => ?_
  have hbody : quotedBody? '\'' ('\\' :: '\'' :: rest) = some (['\\'], rest) :=
    quotedBody?_cons (by decide) (quotedBody?_close (hrest.ne (by decide)))
  show Token.other? ('\'' :: '\\' :: '\'' :: rest) = _
  rw [Token.other?, if_neg (by decide), if_pos rfl, hbody]
  rfl

end EntityQuery.Sql
