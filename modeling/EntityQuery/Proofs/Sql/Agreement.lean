import EntityQuery.Proofs.Document.Selection
import EntityQuery.Proofs.Filter.Fitting
import EntityQuery.Proofs.Sql.Meaning
import EntityQuery.Proofs.Sql.Rendering

/-!
# Conditions mean what predicates say

The text of the condition of a predicate, read as SQL over the columns of an entity, is true if the
predicate holds of the entity, and false if it does not. Every test has a verdict on null, so that
the text is never unknown (`Predicate.Fits.eval?_conditionAfter`). `eval?_ofText?_condition` is the
statement for filters that were validated.
-/

namespace EntityQuery

variable {α : Type} {m : FieldMap α}

/-! ## Parameters -/

namespace Value

theorem dropZeroSign_idem (v : Value) : v.dropZeroSign.dropZeroSign = v.dropZeroSign := by
  cases v with
  | number x =>
    cases x with
    | finite s u => cases u <;> rfl
    | _ => rfl
  | _ => rfl

theorem compare_dropZeroSign_right (v w : Value) : v.compare w.dropZeroSign = v.compare w := by
  rw [← compare_dropZeroSign v, dropZeroSign_idem, compare_dropZeroSign]

theorem decode?_numberToJson {x : Number} (h : x.isFinite = true) :
    Sql.decode? .number (numberToJson x) = some (number x.dropZeroSign) := by
  unfold numberToJson
  split
  · rename_i n hn
    rw [Sql.decode?_int, Number.ofInt_whole? hn]
  · rename_i hn
    rw [if_pos h, Sql.decode?_float, Number.dropZeroSign_of_not_whole hn]

/-- A parameter encodes the operand that it was made from, but for the sign of zero. -/
theorem IsOperand.decode?_toJson {v : Value} {t : FieldType} (h : v.IsOperand t) :
    Sql.decode? t v.toJson = some v.dropZeroSign := by
  have htype := h.type
  cases v with
  | null => nomatch htype
  | string s =>
    obtain rfl := Option.some.inj htype
    rfl
  | number x =>
    obtain rfl := Option.some.inj htype
    exact decode?_numberToJson h.finite
  | boolean b =>
    obtain rfl := Option.some.inj htype
    rfl
  | dateTime i =>
    obtain rfl := Option.some.inj htype
    have hsettled : i.settled = i := dateTime.inj h.settled
    show Sql.decode? .dateTime (.string i.text) = some (dateTime i)
    rw [Sql.decode?_dateTime, Instant.readOffset?_text, hsettled, Option.map_some]
  | guid g =>
    obtain rfl := Option.some.inj htype
    show Sql.decode? .guid (.string g.text) = some (guid g)
    rw [Sql.decode?_guid, Guid.read?_text, Option.map_some]

end Value

namespace Sql

/-- A list of values stands among the parameters, behind `before` others. -/
def Placed (parameters : List Json) (before : Nat) (values : List Json) : Prop :=
  values <+: parameters.drop before

theorem Placed.left {parameters xs ys : List Json} {k : Nat} (h : Placed parameters k (xs ++ ys)) :
    Placed parameters k xs := (List.prefix_append xs ys).trans h

theorem Placed.right {parameters xs ys : List Json} {k : Nat}
    (h : Placed parameters k (xs ++ ys)) : Placed parameters (k + xs.length) ys := by
  obtain ⟨rest, hrest⟩ := h
  refine ⟨rest, ?_⟩
  rw [← List.drop_drop, ← hrest, List.append_assoc, List.drop_left]

theorem Placed.tail {parameters xs : List Json} {x : Json} {k : Nat}
    (h : Placed parameters k (x :: xs)) : Placed parameters (k + 1) xs := by
  have hsplit : Placed parameters k ([x] ++ xs) := h
  exact hsplit.right

theorem Placed.getElem? {parameters xs : List Json} {x : Json} {k : Nat}
    (h : Placed parameters k (x :: xs)) : parameters[k]? = some x := by
  obtain ⟨rest, hrest⟩ := h
  rw [← Nat.add_zero k, ← List.getElem?_drop, ← hrest]
  rfl

/-- A placeholder stands for the value whose parameter was put in its place. -/
theorem Placed.argument? {parameters rest : List Json} {v : Value} {t : FieldType} {k : Nat}
    (h : Placed parameters k (v.toJson :: rest)) (hv : v.IsOperand t) :
    argument? parameters t (k + 1) = some v.dropZeroSign := by
  rw [Sql.argument?, h.getElem?, Option.bind_some, hv.decode?_toJson]

end Sql

/-! ## Entities as rows -/

namespace FieldMap

/-- Columns are distinct, and SQL takes them for names. -/
structure PlainColumns (m : FieldMap α) : Prop where
  distinct : (m.fields.entries.map Field.column).Nodup
  isColumn : ∀ f ∈ m.fields.entries, Sql.IsColumn f.column

/-- Every field of an entity holds nothing or a finite value of its type. -/
def Typed (m : FieldMap α) (entity : α) : Prop :=
  ∀ f ∈ m.fields.entries, f.read entity = .null ∨ (f.read entity).HasType f.type

instance (m : FieldMap α) (entity : α) : Decidable (m.Typed entity) :=
  inferInstanceAs (Decidable (∀ f ∈ m.fields.entries, _ ∨ _))

/-- An entity with the value of each field under its column. -/
def row (m : FieldMap α) (entity : α) : Sql.Row := fun column =>
  (m.fields.entries.find? (·.column = column)).map fun f => (f.type, f.read entity)

theorem find?_column {fs : List (Field α)} (h : (fs.map Field.column).Nodup) {f : Field α}
    (hf : f ∈ fs) : fs.find? (·.column = f.column) = some f := by
  induction fs with
  | nil => cases hf
  | cons g fs ih =>
    rw [List.map_cons, List.nodup_cons] at h
    rcases List.mem_cons.1 hf with rfl | hf
    · rw [List.find?_cons_of_pos (by simp)]
    · have hne : g.column ≠ f.column := fun e => h.1 (e ▸ List.mem_map_of_mem hf)
      rw [List.find?_cons_of_neg (by simpa using hne), ih h.2 hf]

theorem row_column (hm : m.PlainColumns) {f : Field α} (hf : f ∈ m.fields.entries) (entity : α) :
    m.row entity f.column = some (f.type, f.read entity) := by
  rw [row, find?_column hm.distinct hf, Option.map_some]

end FieldMap

/-! ## The tests -/

theorem Comparison.holds_some (op : Comparison) (o : Ordering) :
    op.holds (some o) = Sql.accepts op o := by
  cases op <;> cases o <;> rfl

namespace Sql

variable {parameters : List Json} {t : FieldType} {a v : Value} {k : Nat}

theorem compareValues?_null (op : Comparison) (v : Value) :
    compareValues? op .null v = some .unknown := rfl

theorem compareValues?_eq (op : Comparison) (ha : a.HasType t) (hv : v.HasType t) :
    compareValues? op a v.dropZeroSign = some (.ofBool (op.holds (a.compare v))) := by
  obtain ⟨o, ho⟩ := ha.exists_compare hv
  have hnull : ¬ (a.isNull || v.dropZeroSign.isNull) = true := by
    rw [Value.isNull_dropZeroSign, ha.isNull, hv.isNull]
    decide
  rw [compareValues?, if_neg hnull, Value.compare_dropZeroSign_right, ho, Option.map_some,
    Comparison.holds_some]

/-- Whether null is in a list that has an item is unknown. -/
theorem memberOf?_null {vs : List Value} (hne : vs ≠ []) (hvs : ∀ v ∈ vs, v.IsOperand t)
    (hp : Placed parameters k (vs.map Value.toJson)) :
    memberOf? parameters t .null (List.range' (k + 1) vs.length) = some .unknown := by
  induction vs generalizing k with
  | nil => exact absurd rfl hne
  | cons v vs ih =>
    have hv := hp.argument? (hvs v List.mem_cons_self)
    -- The rest is unknown, or `no` if there is none; the first item makes both unknown.
    have hrest : ∃ s, s ≠ .yes ∧
        memberOf? parameters t .null (List.range' (k + 1 + 1) vs.length) = some s := by
      by_cases hnil : vs = []
      · subst hnil
        exact ⟨.no, by decide, rfl⟩
      · exact ⟨.unknown, by decide, ih hnil (fun w hw => hvs w (List.mem_cons_of_mem v hw)) hp.tail⟩
    obtain ⟨s, hs, hrest⟩ := hrest
    rw [List.length_cons, List.range'_succ, memberOf?, hv, hrest]
    cases s with
    | yes => exact absurd rfl hs
    | no => rfl
    | unknown => rfl

theorem memberOf?_eq {vs : List Value} (ha : a.HasType t) (hvs : ∀ v ∈ vs, v.IsOperand t)
    (hp : Placed parameters k (vs.map Value.toJson)) :
    memberOf? parameters t a (List.range' (k + 1) vs.length) =
      some (.ofBool (vs.any fun v => a.compare v == some .eq)) := by
  induction vs generalizing k with
  | nil => rfl
  | cons v vs ih =>
    have hv := hp.argument? (hvs v List.mem_cons_self)
    have hfirst := compareValues?_eq .eq ha (hvs v List.mem_cons_self).toHasType
    have hrest := ih (fun w hw => hvs w (List.mem_cons_of_mem v hw)) hp.tail
    rw [List.length_cons, List.range'_succ, memberOf?, hv, hrest, Option.bind_eq_bind,
      Option.bind_some, hfirst]
    show some (Truth.or _ _) = _
    rw [Truth.or_ofBool, List.any_cons]
    rfl

end Sql

namespace Predicate

/-! ## Conditions of predicates -/

/-- There is one placeholder for each parameter. -/
theorem conditionAfter_snd (p : Predicate α) (k : Nat) :
    (p.conditionAfter k).2 = k + p.parameters.length := by
  induction p generalizing k with
  | compare f op v => rfl
  | text f test needle negated => rfl
  | isIn f vs negated => simp only [conditionAfter, parameters, List.length_map]
  | isNull f negated => rfl
  | and l r ihl ihr =>
    show (r.conditionAfter (l.conditionAfter k).2).2 = _
    rw [ihr, ihl, parameters, List.length_append, Nat.add_assoc]
  | or l r ihl ihr =>
    show (r.conditionAfter (l.conditionAfter k).2).2 = _
    rw [ihr, ihl, parameters, List.length_append, Nat.add_assoc]
  | not p ih => exact ih k

theorem conditionAfter_and (l r : Predicate α) (k : Nat) :
    ((and l r).conditionAfter k).1 =
      .and (l.conditionAfter k).1 (r.conditionAfter (k + l.parameters.length)).1 := by
  rw [← conditionAfter_snd]
  rfl

theorem conditionAfter_or (l r : Predicate α) (k : Nat) :
    ((or l r).conditionAfter k).1 =
      .or (l.conditionAfter k).1 (r.conditionAfter (k + l.parameters.length)).1 := by
  rw [← conditionAfter_snd]
  rfl

namespace Fits

theorem readable (hm : m.PlainColumns) {p : Predicate α} (h : p.Fits m) (k : Nat) :
    (p.conditionAfter k).1.Readable := by
  induction h generalizing k with
  | compare op hf hv => exact hm.isColumn _ hf
  | text test needle negated hf ht => exact hm.isColumn _ hf
  | isIn negated hf hne hvs =>
    refine ⟨hm.isColumn _ hf, ?_⟩
    rw [Ne, List.range'_eq_nil_iff, List.length_eq_zero_iff]
    exact hne
  | isNull negated hf => exact hm.isColumn _ hf
  | and hp hq ihp ihq =>
    rw [conditionAfter_and]
    exact ⟨ihp k, ihq _⟩
  | or hp hq ihp ihq =>
    rw [conditionAfter_or]
    exact ⟨ihp k, ihq _⟩
  | not hp ih => exact ih k

section Verdicts

variable {f : Field α} {entity : α} {parameters : List Json} {k : Nat}

/-- A comparison is unknown over null, and so the verdict on null counts. -/
theorem eval?_compare (hm : m.PlainColumns) (he : m.Typed entity) (hf : f ∈ m.fields.entries)
    {v : Value} (hv : v.IsOperand f.type) (op : Comparison)
    (hp : Sql.Placed parameters k [v.toJson]) :
    (Sql.Expr.coalesce (.compare f.column op (k + 1)) (.truth op.onNull)).eval? (m.row entity)
      parameters = some (.ofBool ((Predicate.compare f op v).evaluate entity)) := by
  have hrow := FieldMap.row_column hm hf entity
  have htest := Sql.Expr.eval?_compare_of_row hrow (hp.argument? hv) op
  rcases he f hf with hnull | ha
  · rw [hnull, Sql.compareValues?_null] at htest
    rw [Sql.Expr.eval?_coalesce htest, Predicate.evaluate, hnull]
    rfl
  · rw [Sql.compareValues?_eq op ha hv.toHasType] at htest
    rw [Sql.Expr.eval?_coalesce htest, Sql.Truth.coalesce_ofBool, Predicate.evaluate, ha.isNull]
    rfl

theorem eval?_text (hm : m.PlainColumns) (he : m.Typed entity) (hf : f ∈ m.fields.entries)
    (ht : f.type = .string) (test : TextTest) (needle : String) (negated : Bool)
    (hp : Sql.Placed parameters k [.string (Sql.likePattern test needle)]) :
    (Sql.Expr.coalesce (.like f.column negated (k + 1) '\\') (.truth negated)).eval?
      (m.row entity) parameters =
        some (.ofBool ((Predicate.text f test needle negated).evaluate entity)) := by
  have hrow := FieldMap.row_column hm hf entity
  rw [ht] at hrow
  have harg : Sql.argument? parameters .string (k + 1) =
      some (.string (Sql.likePattern test needle)) := by
    rw [Sql.argument?, hp.getElem?]
    rfl
  have htest := Sql.Expr.eval?_like_of_row hrow harg negated '\\'
  cases hread : f.read entity with
  | null =>
    rw [hread, Sql.likeValues?, Option.map_some, Sql.negateIf_unknown] at htest
    rw [Sql.Expr.eval?_coalesce htest, Predicate.evaluate, hread]
    rfl
  | string s =>
    rw [hread, Sql.likeValues?, Sql.like?_likePattern, Option.map_some, Option.map_some,
      Sql.negateIf_ofBool] at htest
    rw [Sql.Expr.eval?_coalesce htest, Sql.Truth.coalesce_ofBool, Predicate.evaluate, hread]
  | number _ | boolean _ | dateTime _ | guid _ =>
    -- A text field of a typed entity holds nothing else.
    rcases he f hf with hnull | ha
    · rw [hread] at hnull
      cases hnull
    · rw [hread, ht] at ha
      cases ha.type

theorem eval?_isIn (hm : m.PlainColumns) (he : m.Typed entity) (hf : f ∈ m.fields.entries)
    {vs : List Value} (hne : vs ≠ []) (hvs : ∀ v ∈ vs, v.IsOperand f.type) (negated : Bool)
    (hp : Sql.Placed parameters k (vs.map Value.toJson)) :
    (Sql.Expr.coalesce (.isIn f.column negated (List.range' (k + 1) vs.length))
      (.truth negated)).eval? (m.row entity) parameters =
        some (.ofBool ((Predicate.isIn f vs negated).evaluate entity)) := by
  have hrow := FieldMap.row_column hm hf entity
  have htest : (Sql.Expr.isIn f.column negated (List.range' (k + 1) vs.length)).eval?
      (m.row entity) parameters = _ := Sql.Expr.eval?_isIn_of_row hrow negated _
  rcases he f hf with hnull | ha
  · rw [hnull, Sql.memberOf?_null hne hvs hp, Option.map_some, Sql.negateIf_unknown] at htest
    rw [Sql.Expr.eval?_coalesce htest, Predicate.evaluate, hnull]
    rfl
  · rw [Sql.memberOf?_eq ha hvs hp, Option.map_some, Sql.negateIf_ofBool] at htest
    rw [Sql.Expr.eval?_coalesce htest, Sql.Truth.coalesce_ofBool, Predicate.evaluate, ha.isNull]
    rfl

end Verdicts

/-- The condition of a predicate has the verdict of the predicate, wherever its parameters are. -/
theorem eval?_conditionAfter (hm : m.PlainColumns) {entity : α} (he : m.Typed entity)
    {p : Predicate α} (h : p.Fits m) {parameters : List Json} {k : Nat}
    (hp : Sql.Placed parameters k p.parameters) :
    (p.conditionAfter k).1.expr.eval? (m.row entity) parameters =
      some (.ofBool (p.evaluate entity)) := by
  -- No test is unknown here, so the connectives of `Truth` are those of `Bool`.
  induction h generalizing k with
  | compare op hf hv => exact eval?_compare hm he hf hv op hp
  | text test needle negated hf ht => exact eval?_text hm he hf ht test needle negated hp
  | isIn negated hf hne hvs => exact eval?_isIn hm he hf hne hvs negated hp
  | isNull negated hf =>
    show (Sql.Expr.isNull _ negated).eval? _ _ = _
    rw [Sql.Expr.eval?, FieldMap.row_column hm hf, Option.map_some, evaluate]
  | and hl hr ihl ihr =>
    rw [conditionAfter_and]
    show (Sql.Expr.and _ _).eval? _ _ = _
    rw [Sql.Expr.eval?, ihl hp.left, ihr hp.right, evaluate, ← Sql.Truth.and_ofBool]
    rfl
  | or hl hr ihl ihr =>
    rw [conditionAfter_or]
    show (Sql.Expr.or _ _).eval? _ _ = _
    rw [Sql.Expr.eval?, ihl hp.left, ihr hp.right, evaluate, ← Sql.Truth.or_ofBool]
    rfl
  | not hp' ih =>
    show (Sql.Expr.not _).eval? _ _ = _
    rw [Sql.Expr.eval?, ih hp, evaluate, ← Sql.Truth.not_ofBool]
    rfl

end Fits

end Predicate

/-! ## Valid filters -/

namespace Node

/-- The text of the condition of a valid filter is an expression that is true of the rows of the
entities that pass the filter, and false of all others. -/
theorem eval?_ofText?_condition (hm : m.PlainColumns) {limits : FilterLimits} {n : Node}
    (hn : n.validate m limits = .ok ()) :
    ∃ p x, n.toPredicate m = .ok p ∧ Sql.Expr.ofText? p.condition.text = some x ∧
      ∀ entity, m.Typed entity →
        x.eval? (m.row entity) p.parameters = some (.ofBool (p.evaluate entity)) := by
  obtain ⟨p, hp, hfits⟩ := fits_of_validate hn
  refine ⟨p, p.condition.expr, hp, Sql.Condition.ofText?_text (hfits.readable hm 0), ?_⟩
  intro entity he
  exact hfits.eval?_conditionAfter hm he (List.prefix_refl p.parameters)

theorem plainColumns_partMap : partMap.PlainColumns where
  distinct := by decide
  isColumn := by decide

/-- A part with neither a size nor a day passes the filter, and so the text is true of its row. -/
theorem eval?_ofText?_condition_partFilter :
    partMap.PlainColumns ∧ partFilter.validate partMap {} = .ok () ∧
      partMap.Typed (.string "xa.b", .null, .null) ∧
      ∃ p x, partFilter.toPredicate partMap = .ok p ∧
        Sql.Expr.ofText? p.condition.text = some x ∧
        x.eval? (partMap.row (.string "xa.b", .null, .null)) p.parameters = some .yes := by
  have htyped : partMap.Typed (.string "xa.b", .null, .null) := by decide
  have hpass : (partFilter.toPredicate partMap).toOption.map
      (·.evaluate (.string "xa.b", .null, .null)) = some true := by decide +kernel
  obtain ⟨p, x, hp, hx, h⟩ := eval?_ofText?_condition plainColumns_partMap validate_partFilter
  rw [hp] at hpass
  have hverdict : p.evaluate (.string "xa.b", .null, .null) = true := Option.some.inj hpass
  refine ⟨plainColumns_partMap, validate_partFilter, htyped, p, x, hp, hx, ?_⟩
  rw [h _ htyped, hverdict]
  rfl

end Node

end EntityQuery
