import EntityQuery.Proofs.Filter.Binding
import EntityQuery.Proofs.Filter.Margins
import EntityQuery.Proofs.Query.Backends

/-!
# Checking a filter and compiling it

A filter that is checked binds, so compiling a request can end in no fault but those of checking
(`outcome_compile`). A request is compiled from the trimmed text of its filter, and the filter is
checked as it stands: `checkFilter_eq_outcome` says how the answers go together.
-/

namespace EntityQuery

variable {α : Type} {m : FieldMap α}

/-! ## The stages of a check -/

theorem checkFilter_of_long {limits : FilterLimits} {raw : String}
    (h : limits.maxLength < raw.length) :
    checkFilter m limits raw = .error (.validation (.tooLong raw.length limits.maxLength)) := by
  rw [checkFilter, checkLength, if_pos h]
  rfl

theorem length_le_of_checkFilter {limits : FilterLimits} {s : String} {n : Node}
    (h : checkFilter m limits s = .ok n) : s.length ≤ limits.maxLength := by
  refine Nat.le_of_not_lt fun hlong => ?_
  rw [checkFilter_of_long hlong] at h
  cases h

theorem checkFilter_of_short {limits : FilterLimits} {raw : String}
    (h : raw.length ≤ limits.maxLength) :
    checkFilter m limits raw = (do
      let n ← (Node.parse raw).mapError .syntaxError
      (n.validate m limits).mapError .validation
      pure n) := by
  rw [checkFilter, checkLength, if_neg (Nat.not_lt.2 h)]
  rfl

theorem checkFilter_of_parse {limits : FilterLimits} {raw : String} {n : Node}
    (hshort : raw.length ≤ limits.maxLength) (hparse : Node.parse raw = .ok n)
    (hvalid : n.validate m limits = .ok ()) : checkFilter m limits raw = .ok n := by
  simp only [checkFilter_of_short hshort, hparse, Except.mapError_ok, Except.ok_bind, hvalid]
  rfl

/-- Checking ends before anything is bound. -/
theorem checkFilter_ne_bind {limits : FilterLimits} {raw : String} (b : BindError) :
    checkFilter m limits raw ≠ .error (.bind b) := by
  rcases Nat.lt_or_ge limits.maxLength raw.length with hlong | hshort
  · rw [checkFilter_of_long hlong]
    exact nofun
  · rw [checkFilter_of_short hshort]
    cases Node.parse raw with
    | error e => exact nofun
    | ok n =>
      simp only [Except.mapError_ok, Except.ok_bind]
      cases n.validate m limits with
      | error e => exact nofun
      | ok => exact nofun

/-! ## What compiling comes to -/

/-- Compiling a text finds the faults of checking it and no others. -/
theorem CompiledFilter.map_node_ofText (m : FieldMap α) (limits : FilterLimits) (raw : String) :
    (CompiledFilter.ofText m limits raw).map (·.node) = checkFilter m limits raw := by
  unfold ofText
  cases h : checkFilter m limits raw with
  | error e => rfl
  | ok n =>
    obtain ⟨⟨p, hp⟩, d, hd⟩ := Node.binds_of_validate (checkFilter_eq_ok h).2
    simp only [Except.ok_bind, hp, hd, Except.mapError_ok]
    rfl

namespace CompiledQuery

/-- The tree that a request is compiled with, or what is wrong with its filter. -/
def outcome (x : Except InvalidFilter (CompiledQuery α)) : Except FilterError (Option Node) :=
  (x.mapError (·.error)).map fun q => q.filter.map (·.node)

theorem outcome_compile (m : FieldMap α) (c : QueryConfig) (r : QueryRequest) :
    outcome (compile m c r) =
      let text := Text.trim (r.filter.getD "")
      if text = "" then .ok none else (checkFilter m c.limits text).map some := by
  unfold compile filterOf
  by_cases hblank : Text.trim (r.filter.getD "") = ""
  · simp only [if_pos hblank]
    rfl
  · simp only [if_neg hblank]
    rw [← CompiledFilter.map_node_ofText]
    cases CompiledFilter.ofText m c.limits (Text.trim (r.filter.getD "")) with
    | error e => rfl
    | ok f => rfl

/-- A request fails with what is wrong with the trimmed text of its filter. -/
theorem checkFilter_of_compile_error {c : QueryConfig} {r : QueryRequest} {e : InvalidFilter}
    (h : compile m c r = .error e) :
    checkFilter m c.limits (Text.trim (r.filter.getD "")) = .error e.error := by
  have houtcome := outcome_compile m c r
  have hfault : outcome (compile m c r) = .error e.error := by rw [h]; rfl
  rw [hfault] at houtcome
  by_cases hblank : Text.trim (r.filter.getD "") = ""
  · simp only [if_pos hblank] at houtcome
    cases houtcome
  · simp only [if_neg hblank] at houtcome
    cases hcheck : checkFilter m c.limits (Text.trim (r.filter.getD "")) with
    | error e' =>
      rw [hcheck] at houtcome
      cases houtcome
      rfl
    | ok n =>
      rw [hcheck] at houtcome
      cases houtcome

/-- A request with a valid filter compiles, and to a query with the tree of the filter. -/
theorem exists_compile {c : QueryConfig} {r : QueryRequest} {n : Node}
    (hshort : (Text.trim (r.filter.getD "")).length ≤ c.limits.maxLength)
    (hparse : Node.parse (Text.trim (r.filter.getD "")) = .ok n)
    (hvalid : n.validate m c.limits = .ok ()) :
    ∃ q, compile m c r = .ok q ∧ q.filter.map (·.node) = some n := by
  have hblank : Text.trim (r.filter.getD "") ≠ "" := by
    intro h
    rw [h] at hparse
    cases hparse
  have houtcome := outcome_compile m c r
  simp only [if_neg hblank, checkFilter_of_parse hshort hparse hvalid] at houtcome
  cases hq : compile m c r with
  | error e =>
    rw [hq] at houtcome
    cases houtcome
  | ok q =>
    rw [hq] at houtcome
    exact ⟨q, rfl, Except.ok.inj houtcome⟩

/-- Both binders succeed with the same trees, every valid tree among them, so that no request ends
with a filter that cannot be bound. -/
theorem binders_fail_together (m : FieldMap α) :
    (∀ n : Node, (∃ p, n.toPredicate m = .ok p) ↔ ∃ d, n.toDocumentFilter m = .ok d) ∧
      (∀ (n : Node) (limits : FilterLimits), n.validate m limits = .ok () →
        (∃ p, n.toPredicate m = .ok p) ∧ ∃ d, n.toDocumentFilter m = .ok d) ∧
      ∀ (c : QueryConfig) (r : QueryRequest) (e : InvalidFilter),
        compile m c r = .error e → ∀ b, e.error ≠ .bind b := by
  refine ⟨fun n => Node.toDocumentFilter_ok_iff.symm, fun n limits => Node.binds_of_validate, ?_⟩
  intro c r e h b hb
  have hcheck := checkFilter_of_compile_error h
  rw [hb] at hcheck
  exact checkFilter_ne_bind b hcheck

/-- A field in place of a condition. -/
def bareField : Node := .mkNot (.mkGroup (.field "name"))

def unknownRequest : QueryRequest where
  filter := some "colour == 1"

/-- Neither binder takes a bare field, both take a valid filter, and an unknown field is found by
checking. -/
theorem binders_fail_together_partMap :
    (¬ ∃ d, bareField.toDocumentFilter partMap = .ok d) ∧
      ((∃ p, Node.partFilter.toPredicate partMap = .ok p) ∧
        ∃ d, Node.partFilter.toDocumentFilter partMap = .ok d) ∧
      ∃ e, compile partMap {} unknownRequest = .error e ∧ ∀ b, e.error ≠ .bind b := by
  obtain ⟨htogether, hvalid, hcompile⟩ := binders_fail_together partMap
  refine ⟨fun h => ?_, hvalid Node.partFilter {} Node.validate_partFilter, ?_⟩
  · obtain ⟨p, hp⟩ := (htogether bareField).2 h
    have hfails : bareField.toPredicate partMap = .error (.notBoolean "name") := rfl
    rw [hp] at hfails
    cases hfails
  · cases h : compile partMap {} unknownRequest with
    | error e => exact ⟨e, rfl, hcompile {} unknownRequest e h⟩
    | ok q =>
      have hfails : (compile partMap {} unknownRequest).isOk = false := by decide +kernel
      rw [h] at hfails
      cases hfails

end CompiledQuery

/-! ## Blanks around the filter of a request -/

/-- The same fault some bytes further on, where it is one of a place. -/
def FilterError.moved (k : Nat) : FilterError → FilterError
  | syntaxError e => syntaxError (e.moved k)
  | e => e

/-- A text that is not too long is checked as its trimmed form is, up to the places of faults. -/
theorem checkFilter_eq_trim {limits : FilterLimits} {raw : String}
    (hshort : raw.length ≤ limits.maxLength) (hraw : Text.isBlankText raw = false) :
    checkFilter m limits raw =
      (checkFilter m limits (Text.trim raw)).mapError (FilterError.moved (Text.margin raw)) := by
  have htrimmed : (Text.trim raw).length ≤ limits.maxLength :=
    Nat.le_trans (Text.length_trim_le raw) hshort
  rw [checkFilter_of_short hshort, checkFilter_of_short htrimmed, Node.parse_eq_trim hraw]
  cases Node.parse (Text.trim raw) with
  | error e => rfl
  | ok n =>
    simp only [Except.mapError_ok, Except.ok_bind]
    cases n.validate m limits with
    | error e => rfl
    | ok => rfl

namespace CompiledQuery

/-- A request comes to what a check of the trimmed text of its filter comes to. The check of the
text as it stands comes to the same tree or the same fault, but it finds the fault as much further
on as there are bytes trimmed in front, and it counts the blanks around the text to its length. -/
theorem checkFilter_eq_outcome (m : FieldMap α) (c : QueryConfig) {r : QueryRequest} {raw : String}
    (hr : r.filter = some raw) (hraw : Text.isBlankText raw = false) :
    outcome (compile m c r) = (checkFilter m c.limits (Text.trim raw)).map some ∧
      (raw.length ≤ c.limits.maxLength →
        (checkFilter m c.limits raw).map some =
          (outcome (compile m c r)).mapError (FilterError.moved (Text.margin raw))) ∧
      (c.limits.maxLength < raw.length →
        checkFilter m c.limits raw =
          .error (.validation (.tooLong raw.length c.limits.maxLength))) := by
  obtain ⟨d, rest, htrim⟩ := Text.isBlankText_eq_false_iff.1 hraw
  have hne : Text.trim raw ≠ "" := by
    intro h
    have hlist := Text.toList_trim raw
    rw [h, htrim] at hlist
    cases hlist
  have houtcome : outcome (compile m c r) = (checkFilter m c.limits (Text.trim raw)).map some := by
    rw [outcome_compile, hr]
    exact if_neg hne
  refine ⟨houtcome, fun hshort => ?_, checkFilter_of_long⟩
  rw [houtcome, checkFilter_eq_trim hshort hraw]
  cases checkFilter m c.limits (Text.trim raw) <;> rfl

/-- A character that begins no lexeme, in a filter behind two blanks. -/
def indentedRequest : QueryRequest where
  filter := some "  name == ~"

/-- The fault is moved by the two blanks, which count when only ten characters are allowed. -/
theorem checkFilter_eq_outcome_indented :
    indentedRequest.filter = some "  name == ~" ∧ Text.isBlankText "  name == ~" = false ∧
      (checkFilter partMap {} "  name == ~").map some =
        (outcome (compile partMap {} indentedRequest)).mapError (FilterError.moved 2) ∧
      checkFilter partMap { maxLength := 10 } "  name == ~" =
        .error (.validation (.tooLong 11 10)) := by
  have hraw : Text.isBlankText "  name == ~" = false := by decide
  have hr : indentedRequest.filter = some "  name == ~" := rfl
  obtain ⟨-, hshort, -⟩ := checkFilter_eq_outcome partMap {} hr hraw
  obtain ⟨-, -, hlong⟩ :=
    checkFilter_eq_outcome partMap { limits := { maxLength := 10 } } hr hraw
  exact ⟨hr, hraw, hshort (by decide), hlong (by decide)⟩

/-- The check and the request place the same fault differently. -/
theorem outcome_indentedRequest :
    checkFilter partMap {} "  name == ~" = .error (.syntaxError ⟨"~", 10, .unrecognized⟩) ∧
      outcome (compile partMap {} indentedRequest) =
        .error (.syntaxError ⟨"~", 8, .unrecognized⟩) := by
  have htrim : Text.trim "  name == ~" = "name == ~" := by decide
  have hcut : Cut.ofText "name == ~" =
      ⟨[⟨.name, "name".toList, 0⟩, ⟨.compare .eq, "==".toList, 5⟩], some (8, ['~'])⟩ := by
    decide +kernel
  have hcheck : checkFilter partMap {} "name == ~" =
      .error (.syntaxError ⟨"~", 8, .unrecognized⟩) := by
    rw [checkFilter_of_short (by decide), Node.parse, if_neg (by decide), hcut]
    rfl
  constructor
  · rw [checkFilter_eq_trim (by decide) (by decide), htrim, hcheck]
    rfl
  · rw [outcome_compile]
    simp only [indentedRequest, Option.getD_some, htrim]
    rw [if_neg (by decide), hcheck]
    rfl

end CompiledQuery

end EntityQuery
