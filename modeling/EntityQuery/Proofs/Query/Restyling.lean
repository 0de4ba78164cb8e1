import EntityQuery.Proofs.Filter.Restyling
import EntityQuery.Proofs.Query.Resending
import EntityQuery.Proofs.Sql.Statements

/-!
# Requests in other letters and with other blanks

A request whose filter comes in other cases and with other blanks compiles to what it compiled to
before: the same predicate, the same statements with the same parameters, and the same document
filter (`CompiledQuery.restyled`).
-/

namespace EntityQuery

theorem Node.parse_trim {s : String} {n : Node} (h : Node.parse s = .ok n) :
    Node.parse (Text.trim s) = .ok n := by
  rw [parse_eq_trim (not_isBlankText_of_parse h)] at h
  exact Except.mapError_eq_ok.1 h

namespace CompiledQuery

variable {α : Type} {m : FieldMap α} {c : QueryConfig} {r : QueryRequest} {s s' : String}
  {n n' : Node}

/-- The filters of the queries come to the same in a store of either kind. -/
structure SameFilter (q q' : CompiledQuery α) : Prop where
  predicate : q'.predicate? = q.predicate?
  statements : Sql.Statements.ofQuery q' = Sql.Statements.ofQuery q
  document : q'.documentFilter = q.documentFilter

theorem exists_filter_of_compile {q : CompiledQuery α} (hr : r.filter = some s)
    (hs : Node.parse s = .ok n) (h : compile m c r = .ok q) :
    ∃ p d, q.filter = some ⟨n, p, d⟩ ∧ n.validate m c.limits = .ok () ∧
      n.toPredicate m = .ok p ∧ n.toDocumentFilter m = .ok d := by
  have htrim := Node.parse_trim hs
  cases hq : q.filter with
  | none =>
    have hblank := filter_eq_none h hq
    rw [hr, Option.getD_some] at hblank
    rw [hblank] at htrim
    cases htrim
  | some f =>
    obtain ⟨hcheck, hp, hd⟩ := CompiledFilter.ofText_eq_ok (filter_eq_some h hq)
    rw [hr, Option.getD_some] at hcheck
    obtain ⟨hparse, hvalid⟩ := checkFilter_eq_ok hcheck
    obtain rfl := Except.ok.inj (hparse.symm.trans htrim)
    exact ⟨f.predicate, f.document, rfl, hvalid, hp, hd⟩

/-- A text with other names for the fields may take the place of the filter of a request. -/
theorem compile_renamed {q : CompiledQuery α} (hr : r.filter = some s)
    (hs : Node.parse s = .ok n) (hs' : Node.parse s' = .ok n')
    (hn : n.Renames (fun a b => Text.eqIgnoreAsciiCase a b = true) n')
    (hshort : (Text.trim s').length ≤ c.limits.maxLength) (h : compile m c r = .ok q) :
    ∃ q', compile m c { r with filter := some s' } = .ok q' ∧ q.SameFilter q' := by
  obtain ⟨p, d, hq, hvalid, hp, hd⟩ := exists_filter_of_compile hr hs h
  have halike := hn.bindsAlike m
  have hcheck : checkFilter m c.limits (Text.trim s') = .ok n' :=
    checkFilter_of_parse hshort (Node.parse_trim hs') ((halike.valid c.limits).2 hvalid)
  have hfilter : filterOf m c.limits (some s') = .ok (some ⟨n', p, d⟩) :=
    filterOf_of_checkFilter hcheck ((halike.predicate c.limits hvalid).trans hp)
      ((halike.document c.limits hvalid).trans hd)
  have hsame : predicate? { q with filter := some ⟨n', p, d⟩ } = q.predicate? := by
    rw [predicate?, predicate?, hq]
    rfl
  refine ⟨_, compile_withFilter h hfilter, hsame, ?_, by rw [documentFilter, documentFilter, hq]⟩
  exact Sql.Statements.ofQuery_congr rfl hsame rfl rfl rfl

/-- Neither the case of keywords nor blanks change what is read: the text of a filter in other
cases and with other blanks is read as the same tree. With the names of its fields in other cases
as well it is valid for the same field maps, and what a request compiles to does not change. These
names are the ones in front of operators. -/
theorem restyled (hs : Node.parse s = .ok n) :
    (∀ (s' : String) (ts ts' : List Token), Restyled Eq s.toList ts s'.toList ts' →
      Node.parse s' = .ok n) ∧
    (∀ (s' : String) (ts ts' : List Token),
      Restyled (fun a b => Text.eqIgnoreAsciiCase a b = true) s.toList ts s'.toList ts' →
      ∃ n', Node.parse s' = .ok n' ∧ ∀ (α : Type) (m : FieldMap α), n.BindsAlike m n' ∧
        ∀ (c : QueryConfig) (r : QueryRequest), r.filter = some s →
          (Text.trim s).length ≤ c.limits.maxLength →
          (Text.trim s').length ≤ c.limits.maxLength →
          (∀ q, compile m c r = .ok q →
            ∃ q', compile m c { r with filter := some s' } = .ok q' ∧ q.SameFilter q') ∧
          ∀ q', compile m c { r with filter := some s' } = .ok q' →
            ∃ q, compile m c r = .ok q ∧ q'.SameFilter q) ∧
    ∀ ts, Scans s.toList ts → Token.fieldWords [] ts = n.fields := by
  refine ⟨fun s' ts ts' h => ?_, fun s' ts ts' h => ?_, fun ts hts => ?_⟩
  · obtain ⟨n', hs', hn⟩ := h.parse (fun _ => rfl)
      (fun a _ hab => hab ▸ Text.eqIgnoreAsciiCase_refl a) hs
    rwa [hn.eq] at hs'
  · obtain ⟨n', hs', hn⟩ := h.parse Text.eqIgnoreAsciiCase_refl (fun _ _ hab => hab) hs
    refine ⟨n', hs', fun α m => ⟨hn.bindsAlike m, fun c r hr hshort hshort' =>
      ⟨fun q => compile_renamed hr hs hs' hn hshort', fun q' hq' => ?_⟩⟩⟩
    have hback := hn.symm fun _ _ => Text.eqIgnoreAsciiCase_symm
    obtain ⟨q, hq, hsame⟩ := compile_renamed rfl hs' hs hback hshort hq'
    rw [← hr] at hq
    exact ⟨q, hq, hsame⟩
  · obtain ⟨w, hw, hn⟩ := Node.parse_iff_scans.1 hs
    obtain rfl := hw.unique hts
    exact hn.fieldWords rfl

/-- A filter without the blanks that it can do without. -/
def membership : String := "name in('a')"

def membershipTree : Node := .mkCall .isIn (.field "name") [.literal ⟨"a", .string⟩]

/-- Its tokens, with the name and the keyword in any case. -/
def membershipTokens (f k : List Char) : List Token :=
  [⟨.name, f⟩, ⟨.inWord, k⟩, ⟨.leftParen, ['(']⟩, ⟨.quoted, "'a'".toList⟩,
    ⟨.rightParen, [')']⟩]

theorem restyled_in {R : String → String → Prop} {f : List Char}
    (h : R "name" (String.ofList f)) :
    Restyled R membership.toList (membershipTokens "name".toList "in".toList)
      (f ++ "  IN ( 'a' )".toList) (membershipTokens f "IN".toList) := by
  have hclose := @Restyled.token R [] [' '] _ _ [] [] _ _ _ rfl rfl (fun hne => absurd rfl hne)
    (Lexeme.leads_iff_front?.2 (by decide)) (.same ⟨.rightParen, [')']⟩) (.done rfl rfl)
  have hitem := @Restyled.token R [] [' '] _ _ _ _ _ _ _ rfl rfl (fun hne => absurd rfl hne)
    (Lexeme.leads_iff_front?.2 (by decide)) (.same ⟨.quoted, "'a'".toList⟩) hclose
  have hopen := @Restyled.token R [] [' '] _ _ _ _ _ _ _ rfl rfl (fun hne => absurd rfl hne)
    (Lexeme.leads_iff_front?.2 (by decide)) (.same ⟨.leftParen, ['(']⟩) hitem
  have hword := @Restyled.token R [' '] [' ', ' '] "in".toList "IN".toList _ _ .inWord _ _ rfl rfl
    (fun _ => by decide) (Lexeme.leads_iff_front?.2 (by decide)) (.word rfl (by decide)) hopen
  exact @Restyled.token R [] [] "name".toList f _ _ .name _ _ rfl rfl id
    (Lexeme.leads_iff_front?.2 (by decide)) (.field rfl h) hword

theorem parse_membership : Node.parse membership = .ok membershipTree := by
  have htokens := restyled_in (R := Eq) (f := "name".toList) rfl
  refine Node.parse_iff_scans.2 ⟨_, htokens.scans_left, ?_⟩
  exact .conjunction (.negation (.primary (.clause
    (.list "name".toList ['('] [')'] (.isIn "in".toList) (.last (.quoted "'a'".toList))))))

/-- A keyword and the name in capitals, and more blanks. -/
theorem restyled_membership :
    Node.parse "name  IN ( 'a' )" = .ok membershipTree ∧
      ∃ q q', compile partMap {} { filter := some membership } = .ok q ∧
        compile partMap {} { filter := some "NAME  IN ( 'a' )" } = .ok q' ∧ q.SameFilter q' := by
  obtain ⟨hkeyword, hname, -⟩ := restyled parse_membership
  have hparse := hkeyword "name  IN ( 'a' )" _ _ (restyled_in (f := "name".toList) rfl)
  obtain ⟨n', -, hn⟩ := hname "NAME  IN ( 'a' )" _ _ (restyled_in (f := "NAME".toList) (by decide))
  obtain ⟨-, hcompile⟩ := hn Part partMap
  have htrim : Text.trim membership = membership := by decide
  have hvalid : membershipTree.validate partMap {} = .ok () := rfl
  obtain ⟨q, hq, -⟩ := exists_compile (c := {}) (r := { filter := some membership })
    (by decide) (htrim.symm ▸ parse_membership) hvalid
  obtain ⟨q', hq', hsame⟩ := (hcompile {} _ rfl (by decide) (by decide)).1 q hq
  exact ⟨hparse, q, q', hq, hq', hsame⟩

end CompiledQuery

end EntityQuery
