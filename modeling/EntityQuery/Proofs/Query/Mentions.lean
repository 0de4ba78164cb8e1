import EntityQuery.Proofs.Text.Case
import EntityQuery.Query.Projection
import Mathlib.Data.List.Induction

/-!
# What the text of a projection says

The text of a projection mentions names, some with a part behind a dot (`Projection.Mentions`). The
entry of a name sums up its mentions, in whatever order and spelling they come
(`entrySumsUp_parse`), and so a text says which names are shown (`ShowsName`) and to which parts
they are narrowed (`Narrows`).
-/

namespace EntityQuery

/-! ## The names of a text -/

namespace Projection

open Text (eqIgnoreAsciiCase eqIgnoreAsciiCase_refl eqIgnoreAsciiCase_symm eqIgnoreAsciiCase_trans)

/-- The text has a part that mentions the name: the whole part, or what stands before its first dot,
with what stands behind it. -/
inductive Mentions (text : Option String) : String → Option String → Prop where
  | bare {part : String} : part ∈ Text.commaParts (text.getD "") → '.' ∉ part.toList →
      Mentions text part none
  | dotted {part : String} {front back : List Char} : part ∈ Text.commaParts (text.getD "") →
      part.toList = front ++ '.' :: back → '.' ∉ front → Text.trimChars front ≠ [] →
      Mentions text (String.ofList (Text.trimChars front))
        (some (String.ofList (Text.trimChars back)))

section Mentioned

variable (mentions : String → Option String → Prop) (name : String)

/-- The name is mentioned, up to the case of the letters A to Z. -/
def Named : Prop := ∃ n c, mentions n c ∧ eqIgnoreAsciiCase n name = true

def NamedWhole : Prop := ∃ n, mentions n none ∧ eqIgnoreAsciiCase n name = true

/-- The name is mentioned with a part behind the dot. -/
def NamedPart (c : String) : Prop :=
  c ≠ "" ∧ ∃ n, mentions n (some c) ∧ eqIgnoreAsciiCase n name = true

/-- Nothing narrows the name to some parts. -/
def NamedOpen : Prop :=
  ¬ Named mentions name ∨ NamedWhole mentions name ∨ ∀ c, ¬ NamedPart mentions name c

end Mentioned

/-! ## Entries -/

/-- The mention of a part, split at its first dot. -/
def mention? (part : String) : Option (String × Option String) :=
  match splitDot part.toList with
  | (_, none) => some (part, none)
  | (front, some back) =>
    if Text.trimChars front = [] then none
    else some (String.ofList (Text.trimChars front), some (String.ofList (Text.trimChars back)))

theorem addPart_eq (p : Projection) (part : String) :
    p.addPart part = match mention? part with
      | none => p
      | some (name, child) => p.mention name child := by
  unfold addPart mention?
  obtain ⟨front, back⟩ := splitDot part.toList
  cases back with
  | none => rfl
  | some back =>
    dsimp only
    split <;> rfl

theorem splitDot_of_notMem {cs : List Char} (h : '.' ∉ cs) : splitDot cs = (cs, none) := by
  have hall : ∀ c ∈ cs, decide (c ≠ '.') = true :=
    fun c hc => decide_eq_true fun heq => h (heq ▸ hc)
  have hdrop : (cs ++ []).dropWhile (fun c => decide (c ≠ '.')) = [] := by
    rw [List.dropWhile_append_of_pos hall, List.dropWhile_nil]
  rw [List.append_nil] at hdrop
  rw [splitDot, hdrop]

theorem splitDot_append {front : List Char} (h : '.' ∉ front) (back : List Char) :
    splitDot (front ++ '.' :: back) = (front, some back) := by
  have hfront : ∀ c ∈ front, decide (c ≠ '.') = true :=
    fun c hc => decide_eq_true fun heq => h (heq ▸ hc)
  rw [splitDot, List.dropWhile_append_of_pos hfront, List.takeWhile_append_of_pos hfront]
  simp

/-- What a text mentions is what its parts do. -/
theorem mentions_iff {text : Option String} {name : String} {child : Option String} :
    Mentions text name child ↔
      (name, child) ∈ (Text.commaParts (text.getD "")).filterMap mention? := by
  rw [List.mem_filterMap]
  constructor
  · rintro (⟨hpart, hdot⟩ | ⟨hpart, hsplit, hdot, hname⟩)
    · exact ⟨_, hpart, by rw [mention?, splitDot_of_notMem hdot]⟩
    · refine ⟨_, hpart, ?_⟩
      rw [mention?, hsplit, splitDot_append hdot]
      exact if_neg hname
  · rintro ⟨part, hpart, hmention⟩
    by_cases hdot : '.' ∈ part.toList
    · obtain ⟨front, back, hsplit, hfront⟩ := List.eq_append_cons_of_mem hdot
      rw [mention?, hsplit, splitDot_append hfront] at hmention
      dsimp only at hmention
      split at hmention
      · cases hmention
      · obtain ⟨rfl, rfl⟩ := Prod.mk.inj (Option.some.inj hmention)
        exact .dotted hpart hsplit hfront ‹_›
    · rw [mention?, splitDot_of_notMem hdot] at hmention
      obtain ⟨rfl, rfl⟩ := Prod.mk.inj (Option.some.inj hmention)
      exact .bare hpart hdot

/-- The entries that a list of mentions leaves. -/
def ofMentions (ms : List (String × Option String)) : Projection :=
  ms.foldl (fun p m => p.mention m.1 m.2) []

theorem ofMentions_concat (ms : List (String × Option String)) (m : String × Option String) :
    ofMentions (ms ++ [m]) = (ofMentions ms).mention m.1 m.2 := by
  rw [ofMentions, List.foldl_append]
  rfl

theorem foldl_addPart (parts : List String) :
    parts.foldl addPart [] = ofMentions (parts.filterMap mention?) := by
  rw [ofMentions, List.foldl_filterMap]
  congr 1
  funext p part
  rw [addPart_eq]
  cases mention? part <;> rfl

theorem name_mention (e : ProjectionEntry) (child : Option String) :
    (ProjectionEntry.mention e child).name = e.name := by
  unfold ProjectionEntry.mention
  split
  · rfl
  · split <;> rfl

theorem entryFor?_cons (e : ProjectionEntry) (p : Projection) (name : String) :
    entryFor? (e :: p) name =
      if eqIgnoreAsciiCase e.name name then some e else entryFor? p name := by
  rw [entryFor?, List.find?_cons, entryFor?]
  cases eqIgnoreAsciiCase e.name name <;> rfl

/-- A mention changes the entry of its name and no other. -/
theorem entryFor?_mention (p : Projection) (n : String) (child : Option String) (name : String) :
    (p.mention n child).entryFor? name =
      if eqIgnoreAsciiCase n name then
        some (ProjectionEntry.mention ((p.entryFor? name).getD ⟨n, [], false⟩) child)
      else p.entryFor? name := by
  induction p with
  | nil =>
    rw [mention, entryFor?_cons, name_mention]
    rfl
  | cons e es ih =>
    rw [mention]
    by_cases hen : eqIgnoreAsciiCase e.name n = true
    · rw [if_pos hen, entryFor?_cons, entryFor?_cons, name_mention]
      by_cases hname : eqIgnoreAsciiCase e.name name = true
      · have hn := eqIgnoreAsciiCase_trans (eqIgnoreAsciiCase_symm hen) hname
        rw [if_pos hname, if_pos hn, if_pos hname, Option.getD_some]
      · have hn : ¬ eqIgnoreAsciiCase n name = true :=
          fun hn => hname (eqIgnoreAsciiCase_trans hen hn)
        rw [if_neg hname, if_neg hn, if_neg hname]
    · rw [if_neg hen, entryFor?_cons, entryFor?_cons, ih]
      by_cases hname : eqIgnoreAsciiCase e.name name = true
      · have hn : ¬ eqIgnoreAsciiCase n name = true :=
          fun hn => hen (eqIgnoreAsciiCase_trans hname (eqIgnoreAsciiCase_symm hn))
        rw [if_pos hname, if_neg hn, if_pos hname]
      · rw [if_neg hname, if_neg hname]

/-! ## An entry sums up its mentions -/

/-- The mentions of a list. -/
def Listed (ms : List (String × Option String)) (n : String) (c : Option String) : Prop :=
  (n, c) ∈ ms

theorem listed_concat {ms : List (String × Option String)} {m : String × Option String} {n : String}
    {c : Option String} : Listed (ms ++ [m]) n c ↔ Listed ms n c ∨ n = m.1 ∧ c = m.2 := by
  rw [Listed, List.mem_append, List.mem_singleton, Prod.ext_iff]
  rfl

/-- The entry holds what the mentions of a name say. -/
structure SumsUp (mentions : String → Option String → Prop) (name : String)
    (e : ProjectionEntry) : Prop where
  whole : e.whole = true ↔ NamedWhole mentions name
  part : ∀ c ∈ e.fields, NamedPart mentions name c
  covers : ∀ c, NamedPart mentions name c → ∃ c' ∈ e.fields, eqIgnoreAsciiCase c' c = true

section Concat

variable {ms : List (String × Option String)} {m : String × Option String} {name : String}

theorem named_concat : Named (Listed (ms ++ [m])) name ↔
    Named (Listed ms) name ∨ eqIgnoreAsciiCase m.1 name = true := by
  constructor
  · rintro ⟨n, c, hmem, hname⟩
    rcases listed_concat.1 hmem with hmem | ⟨rfl, -⟩
    · exact .inl ⟨n, c, hmem, hname⟩
    · exact .inr hname
  · rintro (⟨n, c, hmem, hname⟩ | hname)
    · exact ⟨n, c, listed_concat.2 (.inl hmem), hname⟩
    · exact ⟨m.1, m.2, listed_concat.2 (.inr ⟨rfl, rfl⟩), hname⟩

theorem namedWhole_concat : NamedWhole (Listed (ms ++ [m])) name ↔
    NamedWhole (Listed ms) name ∨ eqIgnoreAsciiCase m.1 name = true ∧ m.2 = none := by
  constructor
  · rintro ⟨n, hmem, hname⟩
    rcases listed_concat.1 hmem with hmem | ⟨rfl, hnone⟩
    · exact .inl ⟨n, hmem, hname⟩
    · exact .inr ⟨hname, hnone.symm⟩
  · rintro (⟨n, hmem, hname⟩ | ⟨hname, hnone⟩)
    · exact ⟨n, listed_concat.2 (.inl hmem), hname⟩
    · exact ⟨m.1, listed_concat.2 (.inr ⟨rfl, hnone.symm⟩), hname⟩

theorem namedPart_concat {c : String} : NamedPart (Listed (ms ++ [m])) name c ↔
    NamedPart (Listed ms) name c ∨
      c ≠ "" ∧ eqIgnoreAsciiCase m.1 name = true ∧ m.2 = some c := by
  constructor
  · rintro ⟨hne, n, hmem, hname⟩
    rcases listed_concat.1 hmem with hmem | ⟨rfl, hsome⟩
    · exact .inl ⟨hne, n, hmem, hname⟩
    · exact .inr ⟨hne, hname, hsome.symm⟩
  · rintro (⟨hne, n, hmem, hname⟩ | ⟨hne, hname, hsome⟩)
    · exact ⟨hne, n, listed_concat.2 (.inl hmem), hname⟩
    · exact ⟨hne, m.1, listed_concat.2 (.inr ⟨rfl, hsome.symm⟩), hname⟩

/-- The mention of another name changes nothing. -/
theorem SumsUp.concat_of_ne {e : ProjectionEntry} (h : SumsUp (Listed ms) name e)
    (hname : ¬ eqIgnoreAsciiCase m.1 name = true) : SumsUp (Listed (ms ++ [m])) name e where
  whole := by
    rw [h.whole, namedWhole_concat, iff_false_intro (fun hm => hname (And.left hm)), or_false]
  part c hc := namedPart_concat.2 (.inl (h.part c hc))
  covers c hc := h.covers c <| (namedPart_concat.1 hc).resolve_right fun hm => hname hm.2.1

/-- An entry with one more mention of its name sums up one more mention. -/
theorem SumsUp.concat {e : ProjectionEntry} (h : SumsUp (Listed ms) name e)
    (hname : eqIgnoreAsciiCase m.1 name = true) :
    SumsUp (Listed (ms ++ [m])) name (ProjectionEntry.mention e m.2) := by
  obtain ⟨n, child⟩ := m
  cases child with
  | none =>
    refine ⟨?_, fun c hc => namedPart_concat.2 (.inl (h.part c hc)), fun c hc => ?_⟩
    · exact iff_of_true rfl (namedWhole_concat.2 (.inr ⟨hname, rfl⟩))
    · rcases namedPart_concat.1 hc with hc | ⟨-, -, hnone⟩
      · exact h.covers c hc
      · cases hnone
  | some child =>
    have hwhole : e.whole = true ↔ NamedWhole (Listed (ms ++ [(n, some child)])) name := by
      rw [h.whole, namedWhole_concat]
      simp
    unfold ProjectionEntry.mention
    dsimp only
    split
    · rename_i hold
      refine ⟨hwhole, fun c hc => namedPart_concat.2 (.inl (h.part c hc)), fun c hc => ?_⟩
      rcases namedPart_concat.1 hc with hc | ⟨hne, -, hsome⟩
      · exact h.covers c hc
      · obtain rfl := Option.some.inj hsome
        exact List.any_eq_true.1 (hold.resolve_left hne)
    · rename_i hnew
      obtain ⟨hne, -⟩ := not_or.1 hnew
      refine ⟨hwhole, fun c hc => ?_, fun c hc => ?_⟩
      · rcases List.mem_append.1 hc with hc | hc
        · exact namedPart_concat.2 (.inl (h.part c hc))
        · obtain rfl := List.mem_singleton.1 hc
          exact namedPart_concat.2 (.inr ⟨hne, hname, rfl⟩)
      · rcases namedPart_concat.1 hc with hc | ⟨-, -, hsome⟩
        · obtain ⟨c', hc', heq⟩ := h.covers c hc
          exact ⟨c', List.mem_append_left _ hc', heq⟩
        · obtain rfl := Option.some.inj hsome
          exact ⟨_, List.mem_append_right _ List.mem_cons_self, eqIgnoreAsciiCase_refl _⟩

end Concat

/-- A name that is not mentioned has an empty sum. -/
theorem sumsUp_of_not_named {mentions : String → Option String → Prop} {name : String}
    (h : ¬ Named mentions name) (n : String) : SumsUp mentions name ⟨n, [], false⟩ where
  whole := iff_of_false Bool.false_ne_true fun ⟨n, hn, hname⟩ => h ⟨n, none, hn, hname⟩
  part := nofun
  covers c := fun ⟨_, n, hn, hname⟩ => absurd ⟨n, some c, hn, hname⟩ h

/-- The entry of a name sums up its mentions; without any there is none. -/
def EntrySumsUp (mentions : String → Option String → Prop) (name : String) :
    Option ProjectionEntry → Prop
  | none => ¬ Named mentions name
  | some e => Named mentions name ∧ SumsUp mentions name e

theorem entrySumsUp_ofMentions (ms : List (String × Option String)) (name : String) :
    EntrySumsUp (Listed ms) name ((ofMentions ms).entryFor? name) := by
  induction ms using List.reverseRecOn with
  | nil =>
    rintro ⟨n, c, hmem, -⟩
    cases hmem
  | append_singleton ms m ih =>
    rw [ofMentions_concat, entryFor?_mention]
    split
    · rename_i hname
      refine ⟨named_concat.2 (.inr hname), SumsUp.concat ?_ hname⟩
      cases he : (ofMentions ms).entryFor? name with
      | none =>
        rw [he] at ih
        exact sumsUp_of_not_named ih m.1
      | some e =>
        rw [he] at ih
        exact ih.2
    · rename_i hname
      cases he : (ofMentions ms).entryFor? name with
      | none =>
        rw [he] at ih
        exact fun h => (named_concat.1 h).elim ih hname
      | some e =>
        rw [he] at ih
        exact ⟨named_concat.2 (.inl ih.1), ih.2.concat_of_ne hname⟩

/-! ## Names that stand alone -/

theorem whole_mention (e : ProjectionEntry) (child : Option String) :
    (ProjectionEntry.mention e child).whole = true ↔ e.whole = true ∨ child = none := by
  cases child with
  | none => exact iff_of_true rfl (.inr rfl)
  | some c =>
    unfold ProjectionEntry.mention
    dsimp only
    split <;> simp

/-- Some entry whose name has this lower case shows everything. -/
def HasWhole (p : Projection) (key : String) : Prop :=
  ∃ e ∈ p, e.whole = true ∧ Text.lower e.name = key

theorem hasWhole_cons {e : ProjectionEntry} {p : Projection} {key : String} :
    HasWhole (e :: p) key ↔ (e.whole = true ∧ Text.lower e.name = key) ∨ HasWhole p key := by
  simp only [HasWhole, List.mem_cons, exists_eq_or_imp]

theorem hasWhole_mention {p : Projection} {n : String} {child : Option String} {key : String} :
    HasWhole (p.mention n child) key ↔ HasWhole p key ∨ child = none ∧ Text.lower n = key := by
  induction p with
  | nil =>
    rw [mention, hasWhole_cons, whole_mention, name_mention]
    simp [HasWhole]
  | cons e es ih =>
    rw [mention]
    split
    · rename_i hname
      rw [hasWhole_cons, hasWhole_cons, whole_mention, name_mention,
        Text.lower_eq_of_eqIgnoreAsciiCase hname, or_and_right]
      constructor
      · rintro ((h | h) | h)
        · exact .inl (.inl h)
        · exact .inr h
        · exact .inl (.inr h)
      · rintro ((h | h) | h)
        · exact .inl (.inl h)
        · exact .inr h
        · exact .inl (.inr h)
    · rw [hasWhole_cons, hasWhole_cons, ih, or_assoc]

theorem hasWhole_ofMentions (ms : List (String × Option String)) (key : String) :
    HasWhole (ofMentions ms) key ↔ ∃ n, Listed ms n none ∧ Text.lower n = key := by
  induction ms using List.reverseRecOn with
  | nil =>
    constructor
    · rintro ⟨e, hmem, -⟩
      cases hmem
    · rintro ⟨n, hmem, -⟩
      cases hmem
  | append_singleton ms m ih =>
    rw [ofMentions_concat, hasWhole_mention, ih]
    constructor
    · rintro (⟨n, hn, hkey⟩ | ⟨hnone, hkey⟩)
      · exact ⟨n, listed_concat.2 (.inl hn), hkey⟩
      · exact ⟨m.1, listed_concat.2 (.inr ⟨rfl, hnone.symm⟩), hkey⟩
    · rintro ⟨n, hn, hkey⟩
      rcases listed_concat.1 hn with hn | ⟨rfl, hnone⟩
      · exact .inl ⟨n, hn, hkey⟩
      · exact .inr ⟨hnone.symm, hkey⟩

theorem mention_ne_nil (p : Projection) (n : String) (child : Option String) :
    p.mention n child ≠ [] := by
  cases p with
  | nil => exact List.cons_ne_nil _ _
  | cons e es =>
    rw [mention]
    split <;> exact List.cons_ne_nil _ _

theorem ofMentions_eq_nil {ms : List (String × Option String)} : ofMentions ms = [] ↔ ms = [] := by
  refine ⟨fun h => ?_, fun h => h ▸ rfl⟩
  rcases List.eq_nil_or_concat ms with rfl | ⟨ms, m, rfl⟩
  · rfl
  · rw [List.concat_eq_append, ofMentions_concat] at h
    exact absurd h (mention_ne_nil _ _ _)

/-! ## What a text says -/

/-- What the mentions of a text leave, if there are any. -/
theorem parse_eq (text : Option String) :
    ∃ ms, Mentions text = Listed ms ∧
      parse text = if ms = [] then none else some (ofMentions ms) := by
  refine ⟨(Text.commaParts (text.getD "")).filterMap mention?, ?_, ?_⟩
  · funext n c
    exact propext mentions_iff
  · rw [parse, foldl_addPart]
    split
    · rename_i hnil
      rw [if_pos (ofMentions_eq_nil.1 hnil)]
    · rename_i hnil
      rw [if_neg fun h => hnil (ofMentions_eq_nil.2 h)]

/-- The entry of a name in what was read sums up what the text says of it. -/
theorem entrySumsUp_parse (text : Option String) (name : String) :
    EntrySumsUp (Mentions text) name ((parse text).bind (·.entryFor? name)) := by
  obtain ⟨ms, hms, hparse⟩ := parse_eq text
  have hsums := entrySumsUp_ofMentions ms name
  rw [hms, hparse]
  split
  · rename_i hnil
    rw [hnil] at hsums ⊢
    exact hsums
  · exact hsums

example : parse (some "Name, assets.id,ASSETS. ,Assets.ID,.id,assets.name") =
    some [⟨"Name", [], true⟩, ⟨"assets", ["id", "name"], false⟩] := by
  decide

/-- Without mentions every name is shown, and else those that are mentioned alone. -/
def ShowsName (text : Option String) (key : String) : Prop :=
  (∀ n c, ¬ Mentions text n c) ∨ ∃ n, Mentions text n none ∧ Text.lower n = key

/-- The relation is shown since it is included or mentioned. -/
def ShowsRelation {α : Type} (text : Option String) (includes : IncludeSet) (r : Relation α) :
    Prop :=
  includes.contains r.name = true ∨ Named (Mentions text) r.name

/-- The names that narrow a relation are the parts it is mentioned with, if anything narrows it. -/
structure Narrows (text : Option String) (name : String) (names : List String) : Prop where
  all : NamedOpen (Mentions text) name → names = []
  part : ¬ NamedOpen (Mentions text) name → ∀ c ∈ names, NamedPart (Mentions text) name c
  covers : ¬ NamedOpen (Mentions text) name → ∀ c, NamedPart (Mentions text) name c →
    ∃ c' ∈ names, eqIgnoreAsciiCase c' c = true

theorem SumsUp.narrows {text : Option String} {name : String} {e : ProjectionEntry}
    (h : SumsUp (Mentions text) name e) : Narrows text name e.selection := by
  unfold ProjectionEntry.selection
  cases hwhole : e.whole with
  | true =>
    have hopen : NamedOpen (Mentions text) name := .inr (.inl (h.whole.1 hwhole))
    exact ⟨fun _ => rfl, fun hnot => absurd hopen hnot, fun hnot => absurd hopen hnot⟩
  | false =>
    refine ⟨fun hopen => ?_, fun _ => h.part, fun _ => h.covers⟩
    refine List.eq_nil_iff_forall_not_mem.2 fun c hc => ?_
    obtain ⟨hne, n, hn, hname⟩ := h.part c hc
    rcases hopen with hnot | hall | hnone
    · exact hnot ⟨n, some c, hn, hname⟩
    · rw [h.whole.2 hall] at hwhole
      cases hwhole
    · exact hnone c ⟨hne, n, hn, hname⟩

theorem narrows_of_not_named {text : Option String} {name : String}
    (h : ¬ Named (Mentions text) name) : Narrows text name [] :=
  ⟨fun _ => rfl, fun hnot => absurd (.inl h) hnot, fun hnot => absurd (.inl h) hnot⟩

theorem showsName_iff {text : Option String} {key : String} :
    ShowsName text key ↔ match parse text with
      | none => True
      | some p => HasWhole p key := by
  obtain ⟨ms, hms, hparse⟩ := parse_eq text
  rw [ShowsName, hms, hparse]
  by_cases hnil : ms = []
  · rw [if_pos hnil, hnil]
    exact iff_of_true (.inl fun n c => List.not_mem_nil) trivial
  · rw [if_neg hnil]
    show _ ↔ HasWhole (ofMentions ms) key
    rw [hasWhole_ofMentions]
    refine or_iff_right fun h => hnil ?_
    exact List.eq_nil_iff_forall_not_mem.2 fun m hm => h m.1 m.2 hm

end Projection

end EntityQuery
