import EntityQuery.Host
import EntityQuery.Proofs.Query.Checking
import EntityQuery.Proofs.RoundTrip.Filter

/-!
# Filters sent back

A host is handed the filter of a compiled request in its normal form, the text of the tree. Sent
back under the same settings it is read as the same tree, so that sizes and types stay within
bounds; but the text may have more characters than the one it came from (a call gets parentheses
and blanks), and these are counted before anything is read. That count alone decides
(`CompiledQuery.resent`).
-/

namespace EntityQuery

variable {α : Type} {m : FieldMap α}

theorem Node.not_isBlankText_of_parse {s : String} {n : Node} (h : Node.parse s = .ok n) :
    Text.isBlankText s = false := by
  cases hblank : Text.isBlankText s with
  | false => rfl
  | true =>
    rw [Node.parse, if_pos hblank] at h
    cases h

/-- The text of a tree that was accepted is accepted as the same tree, if it is short enough. -/
theorem checkFilter_text {limits : FilterLimits} {raw : String} {n : Node}
    (h : checkFilter m limits raw = .ok n) (hshort : n.text.length ≤ limits.maxLength) :
    checkFilter m limits n.text = .ok n := by
  obtain ⟨hparse, hvalid⟩ := checkFilter_eq_ok h
  obtain ⟨ls, hcut, hsentence⟩ := Node.parse_eq_ok.1 hparse
  obtain ⟨w, hspells, hsentence⟩ := spells_of_derives hsentence (Cut.allWhole hcut)
  exact checkFilter_of_parse hshort (Node.parse_of_spells hspells hsentence) hvalid

/-- Blanks around a text that is accepted may go. -/
theorem checkFilter_trim {limits : FilterLimits} {raw : String} {n : Node}
    (h : checkFilter m limits raw = .ok n) (hshort : raw.length ≤ limits.maxLength) :
    checkFilter m limits (Text.trim raw) = .ok n := by
  have hblank := Node.not_isBlankText_of_parse (checkFilter_eq_ok h).1
  rw [checkFilter_eq_trim hshort hblank] at h
  exact Except.mapError_eq_ok.1 h

namespace CompiledQuery

theorem filterOf_of_checkFilter {limits : FilterLimits} {raw : String} {f : CompiledFilter α}
    (hcheck : checkFilter m limits (Text.trim raw) = .ok f.node)
    (hp : f.node.toPredicate m = .ok f.predicate)
    (hd : f.node.toDocumentFilter m = .ok f.document) :
    filterOf m limits (some raw) = .ok (some f) := by
  have hne : Text.trim raw ≠ "" := by
    intro h
    have hblank := Node.not_isBlankText_of_parse (checkFilter_eq_ok hcheck).1
    rw [h] at hblank
    cases hblank
  rw [filterOf, Option.getD_some, if_neg hne, CompiledFilter.ofText]
  simp only [hcheck, hp, hd, Except.ok_bind, Except.mapError_ok]
  rfl

/-- With another filter nothing else of what is compiled changes. -/
theorem compile_withFilter {c : QueryConfig} {r : QueryRequest} {q : CompiledQuery α} {s : String}
    {filter : Option (CompiledFilter α)} (h : compile m c r = .ok q)
    (hs : filterOf m c.limits (some s) = .ok filter) :
    compile m c { r with filter := some s } = .ok { q with filter := filter } := by
  rw [compile, hs, eq_of_compile h]
  rfl

/-- The filter text of a compiled request may take the place of the one it came with. -/
theorem compile_text {c : QueryConfig} {r : QueryRequest} {q : CompiledQuery α}
    {f : CompiledFilter α} (h : compile m c r = .ok q) (hf : q.filter = some f)
    (hshort : f.node.text.length ≤ c.limits.maxLength) :
    compile m c { r with filter := some f.node.text } = .ok q := by
  obtain ⟨hcheck, hp, hd⟩ := CompiledFilter.ofText_eq_ok (filter_eq_some h hf)
  have hagain : filterOf m c.limits (some f.node.text) = .ok (some f) :=
    filterOf_of_checkFilter (checkFilter_trim (checkFilter_text hcheck hshort) hshort) hp hd
  rw [compile_withFilter h hagain, ← hf]

theorem node_text_of_compiled {q : CompiledQuery α} {ms : Json.Members} {s : String}
    (h : Host.compiled q = .object ms) (hs : ("filter", .string s) ∈ ms) :
    ∃ f, q.filter = some f ∧ f.node.text = s := by
  obtain rfl := Json.object.inj h
  cases hf : q.filter with
  | none => simp [hf] at hs
  | some f =>
    refine ⟨f, rfl, ?_⟩
    simp [hf] at hs
    exact hs.symm

/-- The text of an accepted filter is accepted again, as the same tree, exactly if it has no more
characters than the limits allow; otherwise its length is all that is wrong with it. So it is with
the filter text that a host is handed, which may then also take the place of the filter that the
request came with. -/
theorem resent (m : FieldMap α) :
    (∀ (limits : FilterLimits) (raw : String) (n : Node), checkFilter m limits raw = .ok n →
      checkFilter m limits n.text =
        if n.text.length ≤ limits.maxLength then .ok n
        else .error (.validation (.tooLong n.text.length limits.maxLength))) ∧
    ∀ (c : QueryConfig) (r : QueryRequest) (q : CompiledQuery α) (ms : Json.Members) (s : String),
      compile m c r = .ok q → Host.compiled q = .object ms → ("filter", .string s) ∈ ms →
      (s.length ≤ c.limits.maxLength →
        (checkFilter m c.limits s).map some = .ok (q.filter.map (·.node)) ∧
          compile m c { r with filter := some s } = .ok q) ∧
      (c.limits.maxLength < s.length →
        checkFilter m c.limits s =
          .error (.validation (.tooLong s.length c.limits.maxLength))) := by
  constructor
  · intro limits raw n h
    split
    · rename_i hshort
      exact checkFilter_text h hshort
    · rename_i hlong
      exact checkFilter_of_long (Nat.lt_of_not_le hlong)
  · intro c r q ms s h hms hs
    obtain ⟨f, hf, rfl⟩ := node_text_of_compiled hms hs
    refine ⟨fun hshort => ⟨?_, compile_text h hf hshort⟩, checkFilter_of_long⟩
    have hcheck := (CompiledFilter.ofText_eq_ok (filter_eq_some h hf)).1
    rw [checkFilter_text hcheck hshort, hf]
    rfl

/-- A call without parentheses. -/
def bareCall : String := "name @contains 'a'"

def bareCallTree : Node := .mkCall .contains (.field "name") [.literal ⟨"a", .string⟩]

theorem parse_bareCall : Node.parse bareCall = .ok bareCallTree := by
  have hname : Spells "name".toList [⟨.name, "name".toList⟩] := .whole (by decide)
  have hcall : Spells "@contains".toList [⟨.contains, "@contains".toList⟩] := .whole (by decide)
  have hquoted : Spells "'a'".toList [⟨.quoted, "'a'".toList⟩] := .whole (by decide)
  have hclause := Grammar.ClauseTree.text "name".toList (.contains "@contains".toList)
    (.bare (.quoted "'a'".toList))
  exact Node.parse_of_spells (hname.spaced (hcall.spaced hquoted))
    (.conjunction (.negation (.primary (.clause hclause))))

theorem checkFilter_bareCall {limits : FilterLimits} (h : bareCall.length ≤ limits.maxLength)
    (hvalid : bareCallTree.validate partMap limits = .ok ()) :
    checkFilter partMap limits bareCall = .ok bareCallTree :=
  checkFilter_of_parse h parse_bareCall hvalid

def bareConfig : QueryConfig where
  limits := { maxLength := 20 }

def bareRequest : QueryRequest where
  filter := some bareCall

/-- With two characters to spare the call may come back with parentheses. -/
theorem resent_bareCall :
    checkFilter partMap bareConfig.limits bareCall = .ok bareCallTree ∧
      checkFilter partMap bareConfig.limits "name @contains ('a')" = .ok bareCallTree ∧
      ∃ q, compile partMap bareConfig bareRequest = .ok q ∧
        compile partMap bareConfig { filter := some "name @contains ('a')" } = .ok q := by
  obtain ⟨hcheck, hcompile⟩ := resent partMap
  have hbare : checkFilter partMap bareConfig.limits bareCall = .ok bareCallTree :=
    checkFilter_bareCall (by decide) rfl
  refine ⟨hbare, hcheck _ _ _ hbare, ?_⟩
  have htrim : Text.trim (bareRequest.filter.getD "") = bareCall := by decide
  obtain ⟨q, hq, hnode⟩ := exists_compile (c := bareConfig) (r := bareRequest)
    (by rw [htrim]; decide) (by rw [htrim]; exact parse_bareCall)
    (rfl : bareCallTree.validate partMap bareConfig.limits = .ok ())
  obtain ⟨f, hf, hfnode⟩ := Option.map_eq_some_iff.1 hnode
  refine ⟨q, hq, ((hcompile bareConfig bareRequest q _ _ hq rfl ?_).1 (by decide)).2⟩
  have htext : "name @contains ('a')" = f.node.text := by
    rw [hfnode]
    rfl
  rw [hf, htext]
  exact List.mem_cons_of_mem _ List.mem_cons_self

/-- The parentheses take it over a length that the text without them just keeps to. -/
theorem bareCall_grows :
    checkFilter partMap { maxLength := 18 } bareCall = .ok bareCallTree ∧
      checkFilter partMap { maxLength := 18 } bareCallTree.text =
        .error (.validation (.tooLong 20 18)) :=
  ⟨checkFilter_bareCall (by decide) rfl, checkFilter_of_long (by decide)⟩

end CompiledQuery

end EntityQuery
