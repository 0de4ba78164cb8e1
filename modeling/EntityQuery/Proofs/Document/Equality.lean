import EntityQuery.Proofs.Document.Selection

/-!
# What tests for equality select

Values of one kind may be equal, and nothing equals only nothing. But a test compares what its
operand stands for with what the document holds, and JSON that stands for no value is read as
nothing on both sides: null, every array, and every object that is not the wrapper of an instant or
of a GUID. So a test for equality with any of these selects the documents that hold none of the
values at its path, as a test for null does (`equality_selects`).
-/

namespace EntityQuery

namespace Json

/-- The JSON is a stored form of the value. -/
inductive StandsFor : Json → Value → Prop where
  | bool (b : Bool) : StandsFor (bool b) (.boolean b)
  | int (n : Int) : StandsFor (int n) (.number (.ofInt n))
  | float (x : Number) : StandsFor (float x) (.number x)
  | string (s : String) : StandsFor (string s) (.string s)
  | dateTime {s : String} {i : Instant} (h : Instant.read? s = some i) :
      StandsFor (object [("$date", string s)]) (.dateTime i)
  | guid {s : String} {g : Guid} (h : Guid.read? s = some g) :
      StandsFor (object [("$uuid", string s)]) (.guid g)

/-- The JSON is a stored form of no value. -/
def StandsForNothing (j : Json) : Prop := ∀ v, ¬ j.StandsFor v

/-- Equality of what two pieces of JSON stand for. -/
inductive SameValue (a b : Json) : Prop where
  | nothing (ha : a.StandsForNothing) (hb : b.StandsForNothing)
  | value {v w : Value} (ha : a.StandsFor v) (hb : b.StandsFor w) (h : v.compare w = some .eq)

theorem StandsFor.ofDocument {j : Json} {v : Value} (h : j.StandsFor v) :
    Value.ofDocument j = v := by
  cases h with
  | bool _ | int _ | float _ | string _ => rfl
  | dateTime h => rw [Value.ofDocument, h]; rfl
  | guid h => rw [Value.ofDocument, h]; rfl

theorem StandsFor.isNull {j : Json} {v : Value} (h : j.StandsFor v) : v.isNull = false := by
  cases h <;> rfl

theorem standsFor_ofDocument {j : Json} (h : Value.ofDocument j ≠ .null) :
    j.StandsFor (.ofDocument j) := by
  unfold Value.ofDocument at h ⊢
  split at h
  · exact .bool _
  · exact .int _
  · exact .float _
  · exact .string _
  · rename_i s
    cases hs : Instant.read? s with
    | none => rw [hs] at h; exact absurd rfl h
    | some i => exact .dateTime hs
  · rename_i s
    cases hs : Guid.read? s with
    | none => rw [hs] at h; exact absurd rfl h
    | some g => exact .guid hs
  · exact absurd rfl h

theorem ofDocument_eq_null_iff {j : Json} : Value.ofDocument j = .null ↔ j.StandsForNothing := by
  constructor
  · intro h v hv
    have hnull := hv.isNull
    rw [← hv.ofDocument, h] at hnull
    cases hnull
  · intro h
    exact Decidable.byContradiction fun hne => h _ (standsFor_ofDocument hne)

theorem equals_ofDocument_iff {a b : Json} :
    (Value.ofDocument a).equals (.ofDocument b) = true ↔ a.SameValue b := by
  constructor
  · intro h
    by_cases hb : Value.ofDocument b = .null
    · have ha : Value.ofDocument a = .null := by
        rw [hb] at h
        cases hv : Value.ofDocument a with
        | null => rfl
        | string _ | number _ | boolean _ | dateTime _ | guid _ => rw [hv] at h; cases h
      exact .nothing (ofDocument_eq_null_iff.1 ha) (ofDocument_eq_null_iff.1 hb)
    · have hb := standsFor_ofDocument hb
      rw [Document.equals_eq hb.isNull, Bool.and_eq_true, Bool.not_eq_true', beq_iff_eq] at h
      have ha : Value.ofDocument a ≠ .null := fun hnull => by rw [hnull] at h; cases h.1
      exact .value (standsFor_ofDocument ha) hb h.2
  · intro h
    cases h with
    | nothing ha hb => rw [ofDocument_eq_null_iff.2 ha, ofDocument_eq_null_iff.2 hb]; rfl
    | value ha hb h =>
      rw [ha.ofDocument, hb.ofDocument, Document.equals_eq hb.isNull, ha.isNull, h]
      rfl

end Json

namespace Document

/-! ## Conditions and clauses -/

/-- A condition whose members are all operators, of which there is at least one. -/
def OfOperators (j : Json) : Prop :=
  ∃ ms, j = .object ms ∧ ms ≠ [] ∧ ∀ m ∈ ms, m.1 ∈ conditionOperators

/-- The condition is a test for equality with one of the operands, and nothing else. -/
inductive TestsEquality : Json → List Json → Prop where
  | plain {operand : Json} (h : ¬ OfOperators operand) : TestsEquality operand [operand]
  | eq (operand : Json) : TestsEquality (.object [("$eq", operand)]) [operand]
  | isIn (operand : Json) : TestsEquality (.object [("$in", operand)]) (operand.array?.getD [])

/-- The filter puts the condition to the path: by a member of its own or of a filter that it joins by
`$and`, and beside other operators or alone. -/
inductive Demands (path : String) : Json → Json → Prop where
  | member {ms : List (String × Json)} {condition : Json} (h : (path, condition) ∈ ms) :
      Demands path (.object ms) condition
  | joined {ms : List (String × Json)} {fs : List Json} {filter condition : Json}
      (h : ("$and", .array fs) ∈ ms) (hf : filter ∈ fs) (hc : Demands path filter condition) :
      Demands path (.object ms) condition
  | operator {filter : Json} {ms : List (String × Json)} {m : String × Json}
      (hc : Demands path filter (.object ms)) (hms : OfOperators (.object ms)) (hm : m ∈ ms) :
      Demands path filter (.object [m])

theorem isOperators_iff {ms : List (String × Json)} :
    isOperators ms = true ↔ OfOperators (.object ms) := by
  rw [isOperators, Bool.and_eq_true, List.all_eq_true]
  constructor
  · rintro ⟨hne, hall⟩
    refine ⟨ms, rfl, ?_, fun m hm => by simpa using hall m hm⟩
    rintro rfl
    cases hne
  · rintro ⟨ms', hms, hne, hall⟩
    cases hms
    refine ⟨?_, fun m hm => by simpa using hall m hm⟩
    cases ms with
    | nil => exact absurd rfl hne
    | cons m ms => rfl

theorem conditionHolds_of_not_ofOperators {j : Json} (h : ¬ OfOperators j) (actual : Value) :
    conditionHolds actual j = actual.equals (.ofDocument j) := by
  cases j with
  | object ms =>
    rw [conditionHolds, if_neg fun hms => h (isOperators_iff.1 hms)]
  | null | bool _ | int _ | float _ | string _ | array _ => rfl

theorem operatorsHold_cons (actual : Value) (m : String × Json) (ms : List (String × Json)) :
    operatorsHold actual (m :: ms) = (operatorsHold actual [m] && operatorsHold actual ms) := by
  simp only [operatorsHold, Bool.and_true]

theorem operatorsHold_of_mem {actual : Value} {m : String × Json} {ms : List (String × Json)}
    (h : operatorsHold actual ms = true) (hm : m ∈ ms) : operatorsHold actual [m] = true := by
  induction ms with
  | nil => cases hm
  | cons m' ms ih =>
    rw [operatorsHold_cons, Bool.and_eq_true] at h
    rcases List.mem_cons.1 hm with rfl | hm
    · exact h.1
    · exact ih h.2 hm

theorem filterMatches_cons (doc : Json) (m : String × Json) (ms : List (String × Json)) :
    filterMatches doc (.object (m :: ms)) =
      (filterMatches doc (.object [m]) && filterMatches doc (.object ms)) := by
  simp only [filterMatches, clausesMatch, Bool.and_true]

theorem filterMatches_of_mem {doc : Json} {m : String × Json} {ms : List (String × Json)}
    (h : filterMatches doc (.object ms) = true) (hm : m ∈ ms) :
    filterMatches doc (.object [m]) = true := by
  induction ms with
  | nil => cases hm
  | cons m' ms ih =>
    rw [filterMatches_cons, Bool.and_eq_true] at h
    rcases List.mem_cons.1 hm with rfl | hm
    · exact h.1
    · exact ih h.2 hm

theorem filterMatches_of_mem_items {doc : Json} {fs : List Json} {filter : Json}
    (h : allItemsMatch doc fs = true) (hf : filter ∈ fs) : filterMatches doc filter = true := by
  induction fs with
  | nil => cases hf
  | cons f fs ih =>
    rw [allItemsMatch, Bool.and_eq_true] at h
    rcases List.mem_cons.1 hf with rfl | hf
    · exact h.1
    · exact ih h.2 hf

theorem ne_of_not_mem_joinOperators {path : String} (h : path ∉ joinOperators) :
    path ≠ "$and" ∧ path ≠ "$or" ∧ path ≠ "$nor" := by
  simpa only [joinOperators, List.mem_cons, List.not_mem_nil, or_false, not_or] using h

/-- A document that matches a filter meets all conditions that the filter puts to a path. -/
theorem Demands.holds {path : String} {filter condition : Json} (h : Demands path filter condition)
    (hpath : path ∉ joinOperators) {doc : Json} (hdoc : filterMatches doc filter = true) :
    conditionHolds (valueAt doc path) condition = true := by
  induction h with
  | member h =>
    rw [← filterMatches_path doc (ne_of_not_mem_joinOperators hpath)]
    exact filterMatches_of_mem hdoc h
  | joined h hf _ ih =>
    have hand := filterMatches_of_mem hdoc h
    rw [filterMatches_and] at hand
    exact ih (filterMatches_of_mem_items hand hf)
  | @operator filter ms m _ hms hm ih =>
    have hall := ih hdoc
    rw [conditionHolds, if_pos (isOperators_iff.2 hms)] at hall
    obtain ⟨_, heq, -, hkeys⟩ := hms
    cases heq
    rw [conditionHolds_single (by simpa using hkeys m hm)]
    exact operatorsHold_of_mem hall hm

/-! ## Equality -/

theorem conditionHolds_eq (actual : Value) (operand : Json) :
    conditionHolds actual (.object [("$eq", operand)]) = actual.equals (.ofDocument operand) := by
  rw [conditionHolds_single (by decide)]
  exact Bool.and_true _

theorem conditionHolds_in (actual : Value) (operand : Json) :
    conditionHolds actual (.object [("$in", operand)]) = equalsSome actual operand := by
  rw [conditionHolds_single (by decide)]
  exact Bool.and_true _

theorem TestsEquality.holds_iff {condition : Json} {operands : List Json}
    (h : TestsEquality condition operands) (actual : Value) :
    conditionHolds actual condition = true ↔
      ∃ operand ∈ operands, actual.equals (.ofDocument operand) = true := by
  cases h with
  | plain h => rw [conditionHolds_of_not_ofOperators h]; simp
  | eq operand => rw [conditionHolds_eq]; simp
  | isIn operand => rw [conditionHolds_in, equalsSome, List.any_eq_true]

/-- A test for equality selects the documents that hold, at its path, the value of an operand, or no
value at all when some operand stands for none. A filter that puts the test to the path selects no
other documents. -/
theorem equality_selects {path : String} (hpath : path ∉ joinOperators) {condition : Json}
    {operands : List Json} (h : TestsEquality condition operands) (doc : Json) :
    ((DocumentFilter.field path condition).selects doc = true ↔
        ∃ operand ∈ operands, (lookup doc path).SameValue operand) ∧
      ∀ filter : DocumentFilter, Demands path filter.json condition → filter.selects doc = true →
        ∃ operand ∈ operands, (lookup doc path).SameValue operand := by
  have hvalue : conditionHolds (valueAt doc path) condition = true ↔
      ∃ operand ∈ operands, (lookup doc path).SameValue operand := by
    rw [h.holds_iff]
    simp only [valueAt, Json.equals_ofDocument_iff]
  constructor
  · rw [DocumentFilter.selects, DocumentFilter.field,
      filterMatches_path doc (ne_of_not_mem_joinOperators hpath), hvalue]
  · intro filter hdemands hdoc
    exact hvalue.1 (hdemands.holds hpath hdoc)

/-- Prices that are one of an array and a number, and not a third number. -/
def priceConditions : Json :=
  .object [("$in", .array [.array [.int 1], .int 3]), ("$ne", .int 7)]

def priceFilter : DocumentFilter :=
  ⟨.object [("$and", .array [.object [("price", priceConditions)]]), ("name", .string "Pump")]⟩

def pricelessDocument : Json := .object [("name", .string "Pump"), ("size", .int 3)]

theorem ofOperators_priceConditions : OfOperators priceConditions :=
  ⟨_, rfl, List.cons_ne_nil _ _, by decide⟩

theorem demands_priceFilter :
    Demands "price" priceFilter.json (.object [("$in", .array [.array [.int 1], .int 3])]) :=
  .operator (.joined (.head _) (.head _) (.member (.head _))) ofOperators_priceConditions (.head _)

/-- A document without a price is selected for the array among the operands. -/
theorem equality_selects_priceless :
    "price" ∉ joinOperators ∧ priceFilter.selects pricelessDocument = true ∧
      ∃ operand ∈ [.array [.int 1], .int 3],
        (lookup pricelessDocument "price").SameValue operand := by
  have hpath : "price" ∉ joinOperators := by decide
  have hselects : priceFilter.selects pricelessDocument = true := by decide
  exact ⟨hpath, hselects, (equality_selects hpath (.isIn (.array [.array [.int 1], .int 3]))
    pricelessDocument).2 _ demands_priceFilter hselects⟩

/-- A price that is equal to an instant which cannot be read is found where there is no price. -/
theorem unreadable_equals_missing :
    TestsEquality (.object [("$eq", .object [("$date", .string "soon")])])
        [.object [("$date", .string "soon")]] ∧
      Json.object [("$date", .string "soon")] ≠ .null ∧ lookup pricelessDocument "price" = .null ∧
      (DocumentFilter.field "price"
        (.object [("$eq", .object [("$date", .string "soon")])])).selects pricelessDocument =
        true := by
  refine ⟨.eq _, ?_, by rfl, by decide⟩
  intro h
  cases h

end Document

end EntityQuery
