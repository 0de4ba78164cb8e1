import EntityQuery.Filter.Validate
import EntityQuery.Proofs.Filter.Scanning

/-!
# Blanks around a filter

Blanks in front of a filter move the places at which its faults are reported, and blanks behind it
change nothing. So a text and the same text trimmed are read alike up to the places of their faults
(`Node.parse_eq_trim`).
-/

namespace EntityQuery

open Text (Pattern)

@[simp] theorem Except.mapError_ok {ε ε' β : Type} (f : ε → ε') (b : β) :
    (Except.ok b).mapError f = .ok b := rfl

/-! ## Trimmed texts -/

namespace Text

/-- The number of bytes in front of the first character that is not blank. -/
def margin (s : String) : Nat := utf8Length (s.toList.takeWhile isBlank)

/-- A text is its trimmed form with blanks around it. -/
theorem exists_trail (cs : List Char) :
    ∃ trail, cs = cs.takeWhile isBlank ++ (trimChars cs ++ trail) ∧ trail.all isBlank = true := by
  refine ⟨((dropBlank cs).reverse.takeWhile isBlank).reverse, ?_, ?_⟩
  · have hback : trimChars cs ++ ((dropBlank cs).reverse.takeWhile isBlank).reverse =
        dropBlank cs := by
      rw [trimChars, dropBlank, ← List.reverse_append, List.takeWhile_append_dropWhile,
        List.reverse_reverse]
    rw [hback, dropBlank, List.takeWhile_append_dropWhile]
  · rw [List.all_reverse]
    exact List.all_takeWhile

theorem not_isBlank_of_trimChars {cs rest : List Char} {c : Char} (h : trimChars cs = c :: rest) :
    isBlank c = false := by
  obtain ⟨trail, hcs, -⟩ := exists_trail cs
  have hdrop : dropBlank cs = c :: (rest ++ trail) := by
    rw [h] at hcs
    have hsplit := (List.takeWhile_append_dropWhile (p := isBlank) (l := cs)).trans hcs
    exact List.append_cancel_left hsplit
  have hhead := List.head?_dropWhile_not isBlank cs
  rw [← dropBlank, hdrop] at hhead
  simpa using hhead

theorem isBlankText_eq_false_iff {s : String} :
    isBlankText s = false ↔ ∃ c rest, trimChars s.toList = c :: rest := by
  obtain ⟨trail, hs, htrail⟩ := exists_trail s.toList
  have hall := congrArg (List.all · isBlank) hs
  simp only [List.all_append, List.all_takeWhile, htrail, Bool.true_and, Bool.and_true] at hall
  rw [isBlankText, hall]
  cases h : trimChars s.toList with
  | nil => exact ⟨fun h => (nomatch h), fun ⟨_, _, h⟩ => (nomatch h)⟩
  | cons c rest =>
    refine ⟨fun _ => ⟨c, rest, rfl⟩, fun _ => ?_⟩
    rw [List.all_cons, not_isBlank_of_trimChars h, Bool.false_and]

theorem toList_trim (s : String) : (trim s).toList = trimChars s.toList := String.toList_ofList

theorem length_trim_le (s : String) : (trim s).length ≤ s.length := by
  obtain ⟨trail, hs, -⟩ := exists_trail s.toList
  have hlen := congrArg List.length hs
  rw [List.length_append, List.length_append] at hlen
  rw [← String.length_toList, ← String.length_toList, toList_trim]
  omega

end Text

/-! ## Moved cuts -/

/-- The same lexeme some bytes further on. -/
def Lexeme.moved (k : Nat) (l : Lexeme) : Lexeme := { l with start := l.start + k }

theorem Lexeme.stop_moved (k : Nat) (l : Lexeme) : (l.moved k).stop = l.stop + k :=
  Nat.add_right_comm ..

/-- The same fault some bytes further on. -/
def SyntaxError.moved (k : Nat) (e : SyntaxError) : SyntaxError :=
  { e with position := e.position + k }

namespace Cut

def moved (k : Nat) (c : Cut) : Cut :=
  ⟨c.lexemes.map (Lexeme.moved k), c.stuck.map fun p => (p.1 + k, p.2)⟩

/-- The induction is on the recursion of the cut, whose decisions do not look at the place. -/
theorem ofChars_moved (k start : Nat) (cs : List Char) :
    ofChars (start + k) cs = (ofChars start cs).moved k := by
  fun_induction ofChars start cs with
  | case1 => rw [ofChars]; rfl
  | case2 start c rest hc ih => rw [ofChars_blank hc, Nat.add_right_comm, ih]
  | case3 start c rest hc hfront =>
    rw [ofChars_stuck (Bool.eq_false_iff.2 hc) hfront]
    rfl
  | case4 start c rest hc t n hfront l after ih =>
    have hcut : ofChars (start + k) (c :: rest) =
        (ofChars (l.moved k).stop ((c :: rest).drop n)).cons (l.moved k) :=
      ofChars_lexeme (Bool.eq_false_iff.2 hc) hfront rfl
    rw [hcut, Lexeme.stop_moved, ih]
    rfl

end Cut

/-! ## Blanks in front and behind -/

section Blanks

variable {blanks : List Char} (hblanks : blanks.all Text.isBlank = true)

include hblanks

/-- Nothing is matched that ends in one of the blanks. -/
theorem Lexeme.ends_of_blanks (w : List Char) : Lexeme.Ends w blanks := by
  rintro k hk x hx hpre hm
  obtain ⟨y, c, rfl⟩ := (List.eq_nil_or_concat x).resolve_left hx
  rw [List.concat_eq_append] at hpre hm
  have hc : Text.isBlank c = true := by
    refine List.all_eq_true.1 hblanks c (hpre.subset ?_)
    exact List.mem_append_right _ (List.mem_singleton_self c)
  by_cases hq : k.1 = .quoted
  · rw [eq_quotedPattern hk hq] at hm
    obtain ⟨u, hu, -⟩ := matches_quotedPattern.1 hm
    rw [← List.append_assoc, ← List.cons_append] at hu
    -- the last character is the closing quote
    obtain ⟨-, hlast⟩ := List.append_inj' hu rfl
    obtain rfl := (List.cons.inj hlast).1
    revert hc
    decide
  · refine not_mem_of_isBlank hk hq hm hc ?_
    rw [← List.append_assoc]
    exact List.mem_append_right _ (List.mem_singleton_self c)

theorem Text.word_append_blanks (cs : List Char) : word (cs ++ blanks) = word cs := by
  have hnone : blanks.takeWhile (fun c => !isBlank c) = [] := by
    cases blanks with
    | nil => rfl
    | cons b bs =>
      rw [List.all_cons, Bool.and_eq_true] at hblanks
      rw [List.takeWhile_cons_of_neg (by rw [hblanks.1]; decide)]
  rw [word, List.takeWhile_append, hnone, List.append_nil, word]
  split
  · rename_i hall
    exact ((List.takeWhile_prefix _).eq_of_length hall).symm
  · rfl

namespace Cut

theorem ofChars_blanks (start : Nat) (cs : List Char) :
    ofChars start (blanks ++ cs) = ofChars (start + Text.utf8Length blanks) cs := by
  induction blanks generalizing start with
  | nil => rfl
  | cons b bs ih =>
    rw [List.all_cons, Bool.and_eq_true] at hblanks
    rw [List.cons_append, ofChars_blank hblanks.1, ih hblanks.2, Text.utf8Length, Nat.add_assoc]

end Cut

end Blanks

namespace Cut

/-- The same cut of a text with more behind it. -/
def padded (more : List Char) (c : Cut) : Cut :=
  ⟨c.lexemes, c.stuck.map fun p => (p.1, p.2 ++ more)⟩

theorem ofChars_nonempty {c : Char} (hc : Text.isBlank c = false) (start : Nat)
    (rest : List Char) :
    (ofChars start (c :: rest)).lexemes ≠ [] ∨ (ofChars start (c :: rest)).stuck ≠ none := by
  cases hfront : Lexeme.front? (c :: rest) with
  | none =>
    rw [ofChars_stuck hc hfront]
    exact .inr nofun
  | some m =>
    rw [ofChars_lexeme hc hfront rfl]
    exact .inl nofun

theorem ofChars_padded {blanks : List Char} (hblanks : blanks.all Text.isBlank = true)
    (start : Nat) (cs : List Char) :
    ofChars start (cs ++ blanks) = (ofChars start cs).padded blanks := by
  have hfront (w : List Char) : Lexeme.front? (w ++ blanks) = Lexeme.front? w :=
    Lexeme.front?_append (Lexeme.ends_of_blanks hblanks w)
  fun_induction ofChars start cs with
  | case1 => exact ofChars_of_blank hblanks _
  | case2 start c rest hc ih =>
    rw [List.cons_append, ofChars_blank hc, ih]
  | case3 start c rest hc hnone =>
    exact ofChars_stuck (Bool.eq_false_iff.2 hc) ((hfront (c :: rest)).trans hnone) start
  | case4 start c rest hc t n hsome l after ih =>
    have hn : n ≤ (c :: rest).length := Lexeme.le_length_of_front? hsome
    have htake : (c :: (rest ++ blanks)).take n = (c :: rest).take n :=
      List.take_append_of_le_length hn
    have hdrop : (c :: (rest ++ blanks)).drop n = (c :: rest).drop n ++ blanks :=
      List.drop_append_of_le_length hn
    have hl : l = ⟨t, (c :: (rest ++ blanks)).take n, start⟩ := by rw [htake]
    have hsome' : Lexeme.front? (c :: (rest ++ blanks)) = some (t, n) :=
      (hfront (c :: rest)).trans hsome
    rw [List.cons_append, ofChars_lexeme (Bool.eq_false_iff.2 hc) hsome' hl, hdrop, ih]
    rfl

end Cut

/-! ## Reading -/

theorem ParseState.next?_moved (s : ParseState) (k : Nat) (l : Lexeme) :
    s.next? (l.moved k) = s.next? l := rfl

theorem ParseState.run_moved (k : Nat) (s : ParseState) (ls : List Lexeme) :
    s.run (ls.map (Lexeme.moved k)) = (s.run ls).mapError (SyntaxError.moved k) := by
  induction ls generalizing s with
  | nil => rfl
  | cons l ls ih =>
    rw [List.map_cons, run, run, next?_moved]
    cases s.next? l with
    | none => rfl
    | some t => exact ih t

namespace Node

/-- Only a text without anything but blanks has an end that does not move. -/
theorem ofCut_moved {c : Cut} (hc : c.lexemes ≠ [] ∨ c.stuck ≠ none) (k : Nat) :
    ofCut (c.moved k) = (ofCut c).mapError (SyntaxError.moved k) := by
  obtain ⟨ls, stuck⟩ := c
  have hrun := ParseState.run_moved k .start ls
  rw [ofCut, ofCut, show (Cut.moved k ⟨ls, stuck⟩).lexemes = ls.map (Lexeme.moved k) from rfl, hrun]
  cases ParseState.start.run ls with
  | error e => rfl
  | ok s =>
    cases stuck with
    | some p => rfl
    | none =>
      -- an end that comes too early is reported behind the last lexeme
      have hne : ls ≠ [] := hc.resolve_right fun h => h rfl
      have hlast := List.getLast?_eq_some_getLast hne
      simp only [Cut.moved, Option.map_none, Except.mapError_ok, List.getLast?_map, hlast,
        Option.map_some, Option.getD_some, Lexeme.stop_moved]
      cases s.finish? with
      | some n => rfl
      | none => rfl

theorem ofCut_padded {blanks : List Char} (hblanks : blanks.all Text.isBlank = true) (c : Cut) :
    ofCut (c.padded blanks) = ofCut c := by
  obtain ⟨ls, stuck⟩ := c
  cases stuck with
  | none => rfl
  | some p =>
    simp only [Cut.padded, ofCut, Option.map_some, Text.word_append_blanks hblanks]

/-- A text is read as its trimmed form is, and the faults stand as much further on as there are
bytes trimmed in front. -/
theorem parse_eq_trim {s : String} (h : Text.isBlankText s = false) :
    Node.parse s = (Node.parse (Text.trim s)).mapError (SyntaxError.moved (Text.margin s)) := by
  obtain ⟨c, rest, htrim⟩ := Text.isBlankText_eq_false_iff.1 h
  have hc := Text.not_isBlank_of_trimChars htrim
  obtain ⟨trail, hs, htrail⟩ := Text.exists_trail s.toList
  have hinner : (Text.trim s).toList = c :: rest := (Text.toList_trim s).trans htrim
  have hblank : Text.isBlankText (Text.trim s) = false := by
    rw [Text.isBlankText, hinner, List.all_cons, hc, Bool.false_and]
  have hcut : Cut.ofText s = ((Cut.ofText (Text.trim s)).moved (Text.margin s)).padded trail := by
    rw [Cut.ofText, Cut.ofText, hinner, ← Cut.ofChars_moved, ← Cut.ofChars_padded htrail, hs, htrim,
      Cut.ofChars_blanks List.all_takeWhile]
    rfl
  rw [parse, parse, h, hblank, if_neg Bool.false_ne_true, if_neg Bool.false_ne_true, hcut,
    ofCut_padded htrail, ofCut_moved]
  rw [Cut.ofText, hinner]
  exact Cut.ofChars_nonempty hc 0 rest

end Node

end EntityQuery
