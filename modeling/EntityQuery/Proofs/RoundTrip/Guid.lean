import EntityQuery.Guid
import EntityQuery.Number.Power

/-!
# GUIDs read back from their text

The digits of a GUID are read back as its 128 bits, and the hyphens between them are found again
where they were put (`read?_text`).
-/

namespace EntityQuery

theorem Text.hexValue?_digit (n : Nat) :
    Text.hexValue? (Nat.digitChar (n % 16)) = some (n % 16) :=
  Text.hexValue?_digitChar (Nat.mod_lt n (by decide))

namespace Guid

theorem digitsValue?_hexDigits {width n : Nat} (h : n < twoTo (4 * width)) :
    digitsValue? (Text.hexDigits width n) = some n := by
  induction width generalizing n with
  | zero =>
    have h0 : n = 0 := Nat.lt_one_iff.1 h
    rw [h0]
    rfl
  | succ width ih =>
    have hdiv : n / 16 < twoTo (4 * width) := by
      rw [Nat.mul_succ, twoTo_add] at h
      have h16 : twoTo 4 = 16 := rfl
      rw [h16] at h
      omega
    have hstep : 16 * (n / 16) + n % 16 = n := Nat.div_add_mod n 16
    have hfront : (Text.hexDigits width (n / 16)).foldlM
        (fun n c => (Text.hexValue? c).map (16 * n + ·)) 0 = some (n / 16) := ih hdiv
    simp only [digitsValue?, Text.hexDigits, List.foldlM_append, hfront, Option.bind_eq_bind,
      Option.bind_some, List.foldlM_cons, List.foldlM_nil, Text.hexValue?_digit, Option.map_some,
      hstep]
    rfl

theorem length_digits (g : Guid) : g.digits.length = 32 := Text.length_hexDigits 32 _

theorem ofDigits?_digits (g : Guid) : ofDigits? g.digits = some g := by
  have h : digitsValue? g.digits = some g.bits.toNat := digitsValue?_hexDigits g.bits.isLt
  simp only [ofDigits?, length_digits, if_true, h, Option.map_some, BitVec.ofNat_toNat,
    BitVec.setWidth_eq]

/-- Hyphens between groups of 8, 4, 4, 4 and 12 digits are found. -/
theorem withoutHyphens?_groups {a b c d e : List Char} (ha : a.length = 8) (hb : b.length = 4)
    (hc : c.length = 4) (hd : d.length = 4) (he : e.length = 12) :
    withoutHyphens? (a ++ '-' :: b ++ '-' :: c ++ '-' :: d ++ '-' :: e) =
      some (a ++ b ++ c ++ d ++ e) := by
  have hat : ∀ i ∈ [8, 13, 18, 23],
      (a ++ '-' :: b ++ '-' :: c ++ '-' :: d ++ '-' :: e)[i]? = some '-' := by
    intro i hi
    simp only [List.mem_cons, List.not_mem_nil, or_false] at hi
    rcases hi with rfl | rfl | rfl | rfl <;>
      simp [List.getElem?_append, ha, hb, hc, hd]
  have hlen : (a ++ '-' :: b ++ '-' :: c ++ '-' :: d ++ '-' :: e).length = 36 := by
    simp [ha, hb, hc, hd, he]
  rw [withoutHyphens?, if_pos ⟨hlen, by simpa [List.all_eq_true] using hat⟩]
  simp [List.drop_append, List.drop_of_length_le, ha, hb, hc, hd]

theorem chars_groups (g : Guid) : ∃ a b c d e : List Char, a.length = 8 ∧ b.length = 4 ∧
    c.length = 4 ∧ d.length = 4 ∧ e.length = 12 ∧ g.digits = a ++ b ++ c ++ d ++ e ∧
    g.chars = a ++ '-' :: b ++ '-' :: c ++ '-' :: d ++ '-' :: e := by
  have h := length_digits g
  refine ⟨g.digits.take 8, (g.digits.drop 8).take 4, (g.digits.drop 12).take 4,
    (g.digits.drop 16).take 4, g.digits.drop 20, by simp [h], by simp [h], by simp [h], by simp [h],
    by simp [h], ?_, rfl⟩
  have hsplit : ∀ k n, (g.digits.drop k).take n ++ g.digits.drop (k + n) = g.digits.drop k :=
    fun k n => by rw [← List.drop_drop, List.take_append_drop]
  simp only [List.append_assoc]
  rw [hsplit 16 4, hsplit 12 4, hsplit 8 4, List.take_append_drop]

/-- The text of a GUID is read back. -/
theorem read?_text (g : Guid) : read? g.text = some g := by
  obtain ⟨a, b, c, d, e, ha, hb, hc, hd, he, hdigits, hchars⟩ := chars_groups g
  have hlen : g.chars.length = 36 := by simp [hchars, ha, hb, hc, hd, he]
  have hwrap : unwrap g.chars = g.chars := by simp [unwrap, hlen]
  have hplain : withoutHyphens? g.chars = some g.digits := by
    rw [hchars, hdigits, withoutHyphens?_groups ha hb hc hd he]
  simp only [read?, text, String.toList_ofList, hlen, hwrap, hplain, Option.bind_some,
    ofDigits?_digits]
  rfl

end Guid

end EntityQuery
