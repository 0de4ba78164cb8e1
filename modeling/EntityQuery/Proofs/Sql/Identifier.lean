import EntityQuery.Proofs.Sql.Cutting

/-!
# Identifiers

An identifier is a bare word or a name in double quotes (`Identifier`), and `identifier?` finds the
one in front of a statement: a word goes on as long as its characters may be part of one, and a name
in quotes up to the first quote that is not written twice. What an identifier denotes is read from
it, whatever follows at a distance (`identifier?_append`). A name is written as an identifier that
denotes it, unless it is a word with a digit in front (`LeadingDigit`): such a name is taken for a
plain one and written bare, where nothing reads it as an identifier.
-/

namespace EntityQuery.Sql

/-! ## Writing and reading identifiers -/

/-- How the characters of a name are written between quotes: each quote twice. -/
inductive Doubled : List Char → List Char → Prop where
  | nil : Doubled [] []
  | quote {cs ws : List Char} : Doubled cs ws → Doubled ('"' :: cs) ('"' :: '"' :: ws)
  | char {c : Char} {cs ws : List Char} : c ≠ '"' → Doubled cs ws → Doubled (c :: cs) (c :: ws)

/-- The text is an identifier that denotes the name. -/
inductive Identifier : List Char → String → Prop where
  | bare {c : Char} {cs : List Char} : (c.isLower ∨ c = '_') →
      (∀ d ∈ cs, d.isLower ∨ d.isDigit ∨ d = '_') → Identifier (c :: cs) (String.ofList (c :: cs))
  | quoted {s : String} {ws : List Char} : s ≠ "" → Doubled s.toList ws →
      Identifier ('"' :: ws ++ ['"']) s

/-- How a text is cut that holds nothing but identifiers. A bare word counts in lower case. -/
def Identifier.reader : TokenReader String where
  word w := String.ofList (w.map Char.toLower)
  quoted s := String.ofList s
  other? _ := none
  shortens := nofun

/-- The identifier at the front, and the rest. -/
def identifier? : List Char → Option (String × List Char) := Identifier.reader.read?

/-- Nothing, or a character that does not continue an identifier. -/
def Apart (rest : List Char) : Prop := ∀ c ∈ rest.head?, isWordChar c = false ∧ c ≠ '"'

theorem apart_nil : Apart [] := by
  intro c hc
  cases hc

theorem doubled_doubleQuotes (cs : List Char) : Doubled cs (doubleQuotes cs) := by
  induction cs with
  | nil => exact .nil
  | cons c cs ih =>
    unfold doubleQuotes
    split
    · subst c
      exact .quote ih
    · exact .char ‹_› ih

theorem eq_doubleQuotes {cs ws : List Char} (h : Doubled cs ws) : ws = doubleQuotes cs := by
  induction h with
  | nil => rfl
  | quote _ ih => rw [doubleQuotes, if_pos rfl, ih]
  | char hc _ ih => rw [doubleQuotes, if_neg hc, ih]

theorem plain_of_or {c : Char} (h : c.isLower ∨ c.isDigit ∨ c = '_') :
    (c.isLower || c.isDigit || c == '_') = true := by
  rwa [Bool.or_eq_true, Bool.or_eq_true, beq_iff_eq, or_assoc]

/-- An identifier is read as the name that it denotes, to its end and no further. -/
theorem identifier?_append {cs : List Char} {s : String} (h : Identifier cs s) {rest : List Char}
    (hrest : Apart rest) : identifier? (cs ++ rest) = some (s, rest) := by
  cases h with
  | @bare c cs hc hcs =>
    have hplain : ∀ d ∈ c :: cs, (d.isLower || d.isDigit || d == '_') = true :=
      List.forall_mem_cons.2 ⟨plain_of_or (hc.imp_right .inr), fun d hd => plain_of_or (hcs d hd)⟩
    have hstart : isWordStart c = true := by
      rcases hc with hc | rfl
      · exact isWordStart_of_isLower hc
      · rfl
    have hword : ∀ d ∈ cs, isWordChar d = true := fun d hd =>
      isWordChar_of_plain (hplain d (List.mem_cons_of_mem _ hd))
    have hlower : Identifier.reader.word (c :: cs) = String.ofList (c :: cs) := by
      show String.ofList ((c :: cs).map Char.toLower) = _
      rw [(List.map_congr_left fun d hd => toLower_of_plain (hplain d hd)).trans (List.map_id' _)]
    rw [← hlower]
    exact Identifier.reader.read?_word hstart hword fun d hd =>
      Bool.eq_false_iff.1 (hrest d hd).1
  | @quoted s ws hs hws =>
    have hne : s.toList ≠ [] := fun hnil => hs (String.toList_eq_nil_iff.1 hnil)
    have htext : '"' :: ws ++ ['"'] ++ rest = '"' :: (doubleQuotes s.toList ++ '"' :: rest) := by
      rw [eq_doubleQuotes hws, List.append_assoc, List.cons_append, List.singleton_append]
    have hread := Identifier.reader.read?_quoted hne fun c hc => (hrest c hc).2
    rw [htext, identifier?, hread]
    exact congrArg (fun name => some (name, rest)) String.ofList_toList

/-- No text is an identifier for two names. -/
theorem Identifier.unique {cs : List Char} {s s' : String} (h : Identifier cs s)
    (h' : Identifier cs s') : s = s' := by
  have hread := identifier?_append h apart_nil
  rw [identifier?_append h' apart_nil] at hread
  exact (Prod.mk.inj (Option.some.inj hread)).1.symm

/-! ## Names -/

/-- The name is made of lower-case letters, digits and underscores, with a digit in front. -/
structure LeadingDigit (s : String) : Prop where
  plain : ∀ c ∈ s.toList, c.isLower ∨ c.isDigit ∨ c = '_'
  digit : ∃ c ∈ s.toList.head?, c.isDigit = true

theorem isPlain_iff {cs : List Char} :
    isPlain cs = true ↔ cs ≠ [] ∧ ∀ c ∈ cs, c.isLower ∨ c.isDigit ∨ c = '_' := by
  rw [isPlain, Bool.and_eq_true, bne_iff_ne, List.all_eq_true]
  simp only [Bool.or_eq_true, beq_iff_eq, or_assoc]

theorem identifier_quoteName {s : String} (hs : s ≠ "") (h : ¬ LeadingDigit s) :
    Identifier (quoteName s).toList s := by
  by_cases hplain : isPlain s.toList = true
  · obtain ⟨hne, hall⟩ := isPlain_iff.1 hplain
    obtain ⟨c, cs, hcs⟩ := List.exists_cons_of_ne_nil hne
    have hname : s = String.ofList (c :: cs) := by rw [← hcs, String.ofList_toList]
    have hdigit : ¬ c.isDigit = true := fun hc => h ⟨hall, c, by rw [hcs]; rfl, hc⟩
    rw [hcs] at hall
    have hc := (hall c List.mem_cons_self).imp_right fun hor => hor.resolve_left hdigit
    rw [quoteName, if_pos hplain, hname, String.toList_ofList]
    exact .bare hc fun d hd => hall d (List.mem_cons_of_mem _ hd)
  · rw [toList_quoteName_of_not_isPlain hplain]
    exact .quoted hs (doubled_doubleQuotes _)

namespace LeadingDigit

variable {s : String}

theorem quoteName_eq (h : LeadingDigit s) : quoteName s = s := by
  obtain ⟨c, hc, -⟩ := h.digit
  have hne : s.toList ≠ [] := by
    intro hnil
    rw [hnil] at hc
    cases hc
  rw [quoteName, if_pos (isPlain_iff.2 ⟨hne, h.plain⟩)]

/-- No identifier begins as the name does. -/
theorem identifier?_eq_none (h : LeadingDigit s) (rest : List Char) :
    identifier? (s.toList ++ rest) = none := by
  obtain ⟨c, hc, hdigit⟩ := h.digit
  obtain ⟨cs, hcs⟩ := List.head?_eq_some_iff.1 hc
  have hstart : isWordStart c = false := (isSpace_isWordStart_of_isDigit hdigit).2
  have hquote : c ≠ '"' := by
    rintro rfl
    revert hdigit
    decide
  rw [hcs, List.cons_append, identifier?, TokenReader.read?, if_neg (Bool.eq_false_iff.1 hstart),
    if_neg hquote]
  rfl

theorem not_identifier (h : LeadingDigit s) (name : String) : ¬ Identifier s.toList name := by
  intro hname
  have hread := identifier?_append hname apart_nil
  rw [h.identifier?_eq_none] at hread
  cases hread

end LeadingDigit

/-- A bare name has no quote in front. -/
theorem quoteName_ne_of_isPlain {s s' : String} (h : isPlain s.toList = true)
    (h' : ¬ isPlain s'.toList = true) : quoteName s ≠ quoteName s' := by
  intro heq
  have hchars := congrArg String.toList heq
  rw [toList_quoteName_of_not_isPlain h', quoteName, if_pos h, List.cons_append] at hchars
  have hquote : '"' ∈ s.toList := hchars ▸ List.mem_cons_self
  have hplain := (isPlain_iff.1 h).2 '"' hquote
  revert hplain
  decide

theorem quoteName_injective : Function.Injective quoteName := by
  intro s s' heq
  by_cases h : isPlain s.toList = true <;> by_cases h' : isPlain s'.toList = true
  · rwa [quoteName, if_pos h, quoteName, if_pos h'] at heq
  · exact absurd heq (quoteName_ne_of_isPlain h h')
  · exact absurd heq.symm (quoteName_ne_of_isPlain h' h)
  · have hbody : ∀ {t : String}, ¬ isPlain t.toList = true →
        quotedBody? '"' ((quoteName t).toList.drop 1) = some (t.toList, []) := by
      intro t ht
      rw [toList_quoteName_of_not_isPlain ht]
      exact quotedBody?_doubleQuotes t.toList fun c hc => (apart_nil c hc).2
    have hread := hbody h
    rw [heq, hbody h'] at hread
    exact String.toList_inj.1 (Prod.mk.inj (Option.some.inj hread)).1.symm

/-- A name that is not empty is written as an identifier that denotes it and no other name, and
wherever that stands apart from what follows it is read as the name and ends where the name does,
unless the name is a word with a digit in front. Such a name is written as it is, and that is no
identifier. No two names are written alike. -/
theorem quoteName_as_identifier (s : String) (hs : s ≠ "") :
    (¬ LeadingDigit s → (∀ name, Identifier (quoteName s).toList name ↔ name = s) ∧
      ∀ rest, Apart rest → identifier? ((quoteName s).toList ++ rest) = some (s, rest)) ∧
    (LeadingDigit s → quoteName s = s ∧ (∀ name, ¬ Identifier (quoteName s).toList name) ∧
      ∀ rest, identifier? ((quoteName s).toList ++ rest) = none) ∧
    ∀ s', quoteName s' = quoteName s → s' = s := by
  refine ⟨fun h => ?_, fun h => ?_, fun s' heq => quoteName_injective heq⟩
  · have hidentifier := identifier_quoteName hs h
    refine ⟨fun name => ⟨fun h' => h'.unique hidentifier, ?_⟩, fun rest hrest =>
      identifier?_append hidentifier hrest⟩
    rintro rfl
    exact hidentifier
  · rw [h.quoteName_eq]
    exact ⟨rfl, h.not_identifier, h.identifier?_eq_none⟩

theorem quoteName_as_identifier_quote :
    Identifier (quoteName "so \"new\"").toList "so \"new\"" ∧
      identifier? ((quoteName "so \"new\"").toList ++ ", id".toList) =
        some ("so \"new\"", ", id".toList) := by
  have h : ¬ LeadingDigit "so \"new\"" := fun ⟨hplain, _⟩ =>
    absurd (hplain '"' (by decide)) (by decide)
  have hcomma : Apart ", id".toList := by
    intro c hc
    cases hc
    decide
  obtain ⟨hidentifier, hread⟩ := (quoteName_as_identifier _ (by decide)).1 h
  exact ⟨(hidentifier _).2 rfl, hread _ hcomma⟩

/-- A column with a digit in front is written bare. -/
theorem quoteName_2fa :
    quoteName "2fa" = "2fa" ∧ ∀ name, ¬ Identifier (quoteName "2fa").toList name := by
  have hplain : isPlain "2fa".toList = true := by decide
  have h : LeadingDigit "2fa" := ⟨(isPlain_iff.1 hplain).2, '2', by decide, by decide⟩
  exact ⟨h.quoteName_eq, h.quoteName_eq.symm ▸ h.not_identifier⟩

end EntityQuery.Sql
