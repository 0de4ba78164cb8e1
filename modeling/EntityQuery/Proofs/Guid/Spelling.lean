import EntityQuery.Proofs.RoundTrip.Guid
import EntityQuery.Proofs.Text.Case
import Mathlib.Data.List.Induction

/-!
# Texts of GUIDs

A text is one of a GUID if it has its 32 digits in any case, alone or in groups with hyphens between
them, and the groups may stand in braces or behind their scheme (`Guid.SpelledBy`). A GUID is read
from its texts and from no other (`Guid.read?_eq_some_iff`).
-/

namespace EntityQuery

/-! ## Digits in any case -/

namespace Text

theorem hexValue?_toLower (c : Char) : hexValue? c.toLower = hexValue? c :=
  toLower_induction (P := fun c d => hexValue? d = hexValue? c) (fun _ => rfl) (by decide) c

theorem toLower_eq_hyphen (c : Char) : c.toLower = '-' ↔ c = '-' :=
  toLower_induction (P := fun c d => d = '-' ↔ c = '-') (fun _ => .rfl) (by decide) c

/-- A digit is the small letter or the figure of its value. -/
theorem hexValue?_eq_some {c : Char} {v : Nat} (h : hexValue? c = some v) :
    v < 16 ∧ c.toLower = Nat.digitChar v := by
  have hascii : c.toNat < 128 := by
    refine Nat.not_le.1 fun hle => ?_
    have hnone : hexValue? c = none := by
      have habove : ∀ d : Char, d.toNat < 128 → ¬ c ≤ d := fun d hd hcd => by
        have hcode : c.toNat ≤ d.toNat := UInt32.le_iff_toNat_le.1 hcd
        omega
      rw [hexValue?, if_neg fun h => habove '9' (by decide) h.2,
        if_neg fun h => habove 'f' (by decide) h.2, if_neg fun h => habove 'F' (by decide) h.2]
    rw [hnone] at h
    cases h
  have hevery : ∀ n < 128, (hexValue? (Char.ofNat n)).all fun v =>
      v < 16 && (Char.ofNat n).toLower == Nat.digitChar v := by decide
  have hdigit := hevery c.toNat hascii
  rw [Char.ofNat_toNat, h, Option.all_some, Bool.and_eq_true, decide_eq_true_eq,
    beq_iff_eq] at hdigit
  exact hdigit

end Text

namespace Guid

theorem digitsValue?_concat (cs : List Char) (c : Char) :
    digitsValue? (cs ++ [c]) =
      (digitsValue? cs).bind fun n => (Text.hexValue? c).map (16 * n + ·) := by
  rw [digitsValue?, List.foldlM_append]
  simp only [List.foldlM_cons, List.foldlM_nil, bind_pure]
  rfl

/-- A run of digits has the digits of its value, in any case. -/
theorem hexDigits_of_digitsValue? {cs : List Char} {n : Nat} (h : digitsValue? cs = some n) :
    n < twoTo (4 * cs.length) ∧ cs.map Char.toLower = Text.hexDigits cs.length n := by
  induction cs using List.reverseRecOn generalizing n with
  | nil =>
    obtain rfl := Option.some.inj h
    exact ⟨twoTo_pos _, rfl⟩
  | append_singleton cs c ih =>
    rw [digitsValue?_concat] at h
    obtain ⟨k, hk, h⟩ := Option.bind_eq_some_iff.1 h
    obtain ⟨v, hv, rfl⟩ := Option.map_eq_some_iff.1 h
    obtain ⟨hlt, hdigits⟩ := ih hk
    obtain ⟨hv16, hc⟩ := Text.hexValue?_eq_some hv
    have hdiv : (16 * k + v) / 16 = k := by omega
    have hmod : (16 * k + v) % 16 = v := by omega
    rw [List.length_append, List.length_singleton, List.map_append, hdigits, Text.hexDigits, hdiv,
      hmod, ← hc]
    refine ⟨?_, rfl⟩
    have h16 : twoTo (4 * (cs.length + 1)) = twoTo (4 * cs.length) * 16 := twoTo_add _ 4
    omega

theorem digitsValue?_map_toLower (cs : List Char) :
    digitsValue? (cs.map Char.toLower) = digitsValue? cs := by
  rw [digitsValue?, digitsValue?, List.foldlM_map]
  simp only [Text.hexValue?_toLower]

theorem ofDigits?_map_toLower (cs : List Char) :
    ofDigits? (cs.map Char.toLower) = ofDigits? cs := by
  rw [ofDigits?, ofDigits?, List.length_map, digitsValue?_map_toLower]

theorem ofDigits?_eq_some {cs : List Char} {g : Guid} :
    ofDigits? cs = some g ↔ cs.map Char.toLower = g.digits := by
  constructor
  · intro h
    obtain ⟨hlen, h⟩ := Option.ite_none_right_eq_some.1 h
    obtain ⟨n, hn, rfl⟩ := Option.map_eq_some_iff.1 h
    obtain ⟨hlt, hdigits⟩ := hexDigits_of_digitsValue? hn
    rw [hlen] at hlt hdigits
    have hbits : (BitVec.ofNat 128 n).toNat = n := by
      rw [BitVec.toNat_ofNat]
      exact Nat.mod_eq_of_lt hlt
    rw [hdigits, digits, hbits]
  · intro h
    rw [← ofDigits?_map_toLower, h, ofDigits?_digits]

/-! ## Groups -/

theorem drop_of_getElem? {cs : List Char} {n : Nat} {c : Char} (h : cs[n]? = some c) :
    cs.drop n = c :: cs.drop (n + 1) := by
  obtain ⟨hlt, rfl⟩ := List.getElem?_eq_some_iff.1 h
  exact List.drop_eq_getElem_cons hlt

/-- A text up to a hyphen, and the text from there. -/
theorem split_at_hyphen {cs : List Char} {n k : Nat} (h : cs[n + k]? = some '-') :
    cs.drop n = (cs.drop n).take k ++ '-' :: cs.drop (n + k + 1) := by
  rw [← drop_of_getElem? h, ← List.drop_drop, List.take_append_drop]

/-- Digits between hyphens stand in groups of 8, 4, 4, 4 and 12. -/
theorem withoutHyphens?_eq_some {cs ds : List Char} (h : withoutHyphens? cs = some ds) :
    ∃ a b c d e : List Char, a.length = 8 ∧ b.length = 4 ∧ c.length = 4 ∧ d.length = 4 ∧
      ds = a ++ b ++ c ++ d ++ e ∧ cs = a ++ '-' :: b ++ '-' :: c ++ '-' :: d ++ '-' :: e := by
  obtain ⟨⟨hlen, hhyphens⟩, h⟩ := Option.ite_none_right_eq_some.1 h
  have hat : ∀ i ∈ [8, 13, 18, 23], cs[i]? = some '-' := fun i hi =>
    beq_iff_eq.1 (List.all_eq_true.1 hhyphens i hi)
  refine ⟨_, _, _, _, _, ?_, ?_, ?_, ?_, (Option.some.inj h).symm, ?_⟩
  · rw [List.length_take, hlen]
    rfl
  · rw [List.length_take, List.length_drop, hlen]
    rfl
  · rw [List.length_take, List.length_drop, hlen]
    rfl
  · rw [List.length_take, List.length_drop, hlen]
    rfl
  · have h0 : cs = cs.take 8 ++ '-' :: cs.drop 9 :=
      split_at_hyphen (n := 0) (k := 8) (hat 8 (by decide))
    have h9 := split_at_hyphen (n := 9) (k := 4) (hat 13 (by decide))
    have h14 := split_at_hyphen (n := 14) (k := 4) (hat 18 (by decide))
    have h19 := split_at_hyphen (n := 19) (k := 4) (hat 23 (by decide))
    simp only [List.append_assoc, List.cons_append]
    rw [← h19, ← h14, ← h9, ← h0]

theorem chars_of_digits {g : Guid} {a b c d e : List Char} (ha : a.length = 8) (hb : b.length = 4)
    (hc : c.length = 4) (hd : d.length = 4) (h : g.digits = a ++ b ++ c ++ d ++ e) :
    g.chars = a ++ '-' :: b ++ '-' :: c ++ '-' :: d ++ '-' :: e := by
  simp [chars, h, List.drop_append, List.drop_of_length_le, ha, hb, hc, hd]

/-- The GUID of digits in groups. -/
def ofGroups? (cs : List Char) : Option Guid := (withoutHyphens? cs).bind ofDigits?

theorem withoutHyphens?_map_toLower (cs : List Char) :
    withoutHyphens? (cs.map Char.toLower) = (withoutHyphens? cs).map (List.map Char.toLower) := by
  have hhyphens : [8, 13, 18, 23].all (fun i => (cs.map Char.toLower)[i]? == some '-') =
      [8, 13, 18, 23].all fun i => cs[i]? == some '-' := by
    congr 1
    funext i
    rw [List.getElem?_map]
    cases cs[i]? with
    | none => rfl
    | some c =>
      rw [Option.map_some, Bool.eq_iff_iff, beq_iff_eq, beq_iff_eq, Option.some_inj, Option.some_inj]
      exact Text.toLower_eq_hyphen c
  rw [withoutHyphens?, withoutHyphens?, hhyphens, List.length_map]
  split
  · simp only [Option.map_some, List.map_append, List.map_take, List.map_drop]
  · rfl

theorem ofGroups?_eq_some {cs : List Char} {g : Guid} :
    ofGroups? cs = some g ↔ cs.map Char.toLower = g.chars := by
  constructor
  · intro h
    obtain ⟨ds, hds, hdigits⟩ := Option.bind_eq_some_iff.1 h
    obtain ⟨a, b, c, d, e, ha, hb, hc, hd, rfl, rfl⟩ := withoutHyphens?_eq_some hds
    have hlower := ofDigits?_eq_some.1 hdigits
    simp only [List.map_append] at hlower
    rw [chars_of_digits (by rw [List.length_map, ha]) (by rw [List.length_map, hb])
      (by rw [List.length_map, hc]) (by rw [List.length_map, hd]) hlower.symm]
    simp only [List.map_append, List.map_cons]
    rfl
  · intro h
    have hlower : ofGroups? (cs.map Char.toLower) = some g := by
      obtain ⟨a, b, c, d, e, ha, hb, hc, hd, he, hdigits, hchars⟩ := chars_groups g
      rw [h, ofGroups?, hchars, withoutHyphens?_groups ha hb hc hd he, ← hdigits, Option.bind_some,
        ofDigits?_digits]
    rw [ofGroups?, withoutHyphens?_map_toLower] at hlower
    obtain ⟨ds, hds, hg⟩ := Option.bind_eq_some_iff.1 hlower
    obtain ⟨ds', hds', rfl⟩ := Option.map_eq_some_iff.1 hds
    rw [ofDigits?_map_toLower] at hg
    rw [ofGroups?, hds', Option.bind_some, hg]

theorem length_chars (g : Guid) : g.chars.length = 36 := by
  obtain ⟨a, b, c, d, e, ha, hb, hc, hd, he, -, hchars⟩ := chars_groups g
  simp [hchars, ha, hb, hc, hd, he]

/-! ## Texts -/

/-- The text is one of the GUID. -/
inductive SpelledBy (g : Guid) : List Char → Prop where
  | digits {cs : List Char} : cs.map Char.toLower = g.digits → SpelledBy g cs
  | groups {cs : List Char} : cs.map Char.toLower = g.chars → SpelledBy g cs
  | braces {cs : List Char} : cs.map Char.toLower = g.chars →
      SpelledBy g ('\x7b' :: cs ++ ['\x7d'])
  | scheme {front cs : List Char} : front.map Char.toLower = "urn:uuid:".toList →
      cs.map Char.toLower = g.chars → SpelledBy g (front ++ cs)

theorem spelledBy_of_unwrap {cs : List Char} {g : Guid}
    (h : (unwrap cs).map Char.toLower = g.chars) : SpelledBy g cs := by
  unfold unwrap at h
  split at h
  · rename_i hbraces
    obtain ⟨-, hfirst, hlast⟩ := hbraces
    obtain ⟨rest, rfl⟩ := List.head?_eq_some_iff.1 hfirst
    obtain ⟨inner, hinner⟩ := List.getLast?_eq_some_iff.1 hlast
    cases inner with
    | nil => cases hinner
    | cons c inner =>
      obtain ⟨rfl, rfl⟩ := List.cons.inj hinner
      rw [List.drop_one, List.tail_cons, List.append_eq, List.dropLast_concat] at h
      exact .braces h
  split at h
  · rename_i hscheme
    rw [← List.take_append_drop 9 cs]
    exact .scheme hscheme.2 h
  · exact .groups h

section Unwrap

variable {cs : List Char} (hlen : cs.length = 36)
include hlen

theorem unwrap_of_length : unwrap cs = cs := by simp [unwrap, hlen]

theorem unwrap_braces : unwrap ('\x7b' :: cs ++ ['\x7d']) = cs := by
  have hbraces : ('\x7b' :: cs ++ ['\x7d']).length = 38 := by simp [hlen]
  rw [unwrap, if_pos ⟨hbraces, rfl, List.getLast?_concat⟩]
  exact List.dropLast_concat

theorem unwrap_scheme {front : List Char} (h : front.map Char.toLower = "urn:uuid:".toList) :
    unwrap (front ++ cs) = cs := by
  have hfront : front.length = 9 := by rw [← List.length_map Char.toLower, h]; rfl
  simp [unwrap, hlen, hfront, h]

end Unwrap

/-- The GUID that a text of characters stands for. -/
def readChars? (cs : List Char) : Option Guid :=
  if cs.length = 32 then ofDigits? cs else ofGroups? (unwrap cs)

theorem readChars?_of_unwrap {cs inner : List Char} {g : Guid} (hne : cs.length ≠ 32)
    (hunwrap : unwrap cs = inner) (h : inner.map Char.toLower = g.chars) :
    readChars? cs = some g := by
  rw [readChars?, if_neg hne, hunwrap, ofGroups?_eq_some.2 h]

/-- The texts from which a GUID is read are its texts. -/
theorem read?_eq_some_iff {s : String} {g : Guid} :
    read? s = some g ↔ SpelledBy g s.toList := by
  show readChars? s.toList = some g ↔ _
  generalize s.toList = cs
  have hlength : ∀ {cs : List Char}, cs.map Char.toLower = g.chars → cs.length = 36 := by
    intro cs h
    rw [← List.length_map Char.toLower, h, length_chars]
  constructor
  · intro h
    unfold readChars? at h
    split at h
    · exact .digits (ofDigits?_eq_some.1 h)
    · exact spelledBy_of_unwrap (ofGroups?_eq_some.1 h)
  · intro h
    cases h with
    | digits h =>
      have hlen : cs.length = 32 := by rw [← List.length_map Char.toLower, h, length_digits]
      rw [readChars?, if_pos hlen, ofDigits?_eq_some.2 h]
    | groups h =>
      have hlen := hlength h
      exact readChars?_of_unwrap (by omega) (unwrap_of_length hlen) h
    | braces h =>
      have hlen := hlength h
      exact readChars?_of_unwrap (by simp [hlen]) (unwrap_braces hlen) h
    | scheme hfront h =>
      have hlen := hlength h
      exact readChars?_of_unwrap (by simp [hlen]) (unwrap_scheme hlen hfront) h

/-- A text is one of one GUID only. -/
theorem SpelledBy.unique {g g' : Guid} {cs : List Char} (h : SpelledBy g cs)
    (h' : SpelledBy g' cs) : g = g' := by
  rw [← String.toList_ofList (l := cs)] at h h'
  exact Option.some.inj ((read?_eq_some_iff.2 h).symm.trans (read?_eq_some_iff.2 h'))

end Guid

end EntityQuery
