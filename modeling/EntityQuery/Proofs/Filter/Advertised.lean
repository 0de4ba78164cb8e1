import EntityQuery.Filter.Catalogue
import EntityQuery.Proofs.Filter.Faults
import EntityQuery.Proofs.Query.Checking
import EntityQuery.Proofs.RoundTrip.Filter
import EntityQuery.Proofs.Text.Case

/-!
# The catalogue and validation

What the catalogue lists and what validation accepts come from different places: the operators of
a field from a table of symbols, the verdict on a clause from the class of its operator.
`mem_operatorsFor` ties the two, so that a clause with proper literals is valid exactly if the
catalogue has its operator for its field. The examples that go with an error are clauses on fields
of different types, and they can be read and are valid if the fields have names that a filter can
spell (`IsFieldName`).
-/

namespace EntityQuery

variable {α : Type} {m : FieldMap α}

/-! ## Operators -/

theorem operatorClass_eq_of_symbol : ∀ o ∈ comparisonOperators, ∀ p ∈ comparisonOperators,
    o.1 = p.1 → o.2 = p.2 := by
  decide

/-- A type is listed with an operator exactly if the class of the operator permits it. -/
theorem mem_operatorsFor {symbol : String} {c : OperatorClass}
    (h : (symbol, c) ∈ comparisonOperators) {t : FieldType} :
    symbol ∈ operatorsFor t ↔ c.permits t = true := by
  constructor
  · intro hmem
    obtain ⟨o, ho, heq⟩ := List.mem_map.1 hmem
    obtain ⟨hlisted, hpermits⟩ := List.mem_filter.1 ho
    have hclass : o.2 = c := operatorClass_eq_of_symbol o hlisted _ h heq
    rwa [hclass] at hpermits
  · exact fun hpermits => List.mem_map.2 ⟨_, List.mem_filter.2 ⟨h, hpermits⟩, rfl⟩

theorem Comparison.mem_comparisonOperators (c : Comparison) :
    (c.symbol, c.operatorClass) ∈ comparisonOperators := by
  cases c <;> decide

theorem CallOp.mem_comparisonOperators (op : CallOp) :
    (op.symbol, op.operatorClass) ∈ comparisonOperators := by
  cases op <;> decide

theorem mem_describeFields {d : FieldDescription} :
    d ∈ describeFields m ↔
      ∃ f ∈ m.fields.entries, f.canFilter = true ∧ d = ⟨f.name, f.type, operatorsFor f.type⟩ := by
  rw [describeFields, List.mem_map]
  refine exists_congr fun f => ?_
  rw [List.mem_filter, and_assoc, eq_comm (a := d)]

/-! ## Clauses -/

/-- A tree is a clause on a field: an operator, by its symbol and class, with literals as many as it
takes. -/
inductive Node.IsClause (name : String) : Node → String → OperatorClass → List Literal → Prop where
  | comparison (c : Comparison) (l : Literal) (s : Size) :
      IsClause name (binary (.compare c) (field name) (literal l) s) c.symbol c.operatorClass [l]
  | call (op : CallOp) (ls : List Literal) (s : Size) (h : op.admits ls.length = true) :
      IsClause name (call op (field name) (ls.map literal) s) op.symbol op.operatorClass ls

namespace Node.IsClause

variable {name symbol : String} {n : Node} {c : OperatorClass} {ls : List Literal}

theorem mem_comparisonOperators (h : n.IsClause name symbol c ls) :
    (symbol, c) ∈ comparisonOperators := by
  cases h with
  | comparison c l s => exact c.mem_comparisonOperators
  | call op ls s h => exact op.mem_comparisonOperators

theorem wellTyped {f : Field α} {vs : List Value} (h : n.IsClause name symbol c ls)
    (hf : m.Admits name c f) (hvs : Literal.Resolves f.type ls vs) : n.WellTyped m := by
  cases h with
  | comparison c l s =>
    obtain ⟨v, -, hv⟩ : ∃ v, vs = [v] ∧ l.resolve f.type = some v := by
      obtain ⟨v, rfl⟩ := List.length_eq_one_iff.1 hvs.length_eq
      exact ⟨v, rfl, List.cons.inj hvs |>.1⟩
    exact .comparison s hf hv
  | call op ls s hcount => exact .call s hf hcount hvs

theorem admits_of_wellTyped (h : n.IsClause name symbol c ls) (hn : n.WellTyped m) :
    ∃ f, m.Admits name c f := by
  cases h with
  | comparison c l s =>
    cases hn with
    | comparison _ hf _ => exact ⟨_, hf⟩
  | call op ls s _ =>
    generalize hargs : ls.map literal = args at hn
    cases hn with
    | call _ hf _ _ => exact ⟨_, hf⟩

/-- A clause whose literals have values at the type of its field is valid exactly if the catalogue
lists its operator with its field. -/
theorem validate_eq_ok_iff (h : n.IsClause name symbol c ls) {limits : FilterLimits}
    (hdepth : n.depth ≤ limits.maxDepth) (hcost : n.cost ≤ limits.maxNodes)
    (hls : ∀ f, m.get? name = some f → ∃ vs, Literal.Resolves f.type ls vs) :
    n.validate m limits = .ok () ↔
      ∃ d ∈ describeFields m, Text.lower d.name = Text.lower name ∧ symbol ∈ d.operators := by
  have hsymbol := h.mem_comparisonOperators
  constructor
  · intro hvalid
    obtain ⟨f, hf⟩ := h.admits_of_wellTyped (wellTyped_of_validate hvalid)
    obtain ⟨hmem, hkey⟩ := Registry.mem_of_find? hf.found
    exact ⟨_, mem_describeFields.2 ⟨f, hmem, hf.canFilter, rfl⟩, hkey,
      (mem_operatorsFor hsymbol).2 hf.permits⟩
  · rintro ⟨d, hd, hname, hlisted⟩
    obtain ⟨f, hmem, hopen, rfl⟩ := mem_describeFields.1 hd
    have hfound : m.get? name = some f := by
      have hkey := m.fields.find?_key hmem
      rwa [Field.key, hname] at hkey
    obtain ⟨vs, hvs⟩ := hls f hfound
    exact validate_eq_ok.2 ⟨hdepth, hcost,
      h.wellTyped ⟨hfound, hopen, (mem_operatorsFor hsymbol).1 hlisted⟩ hvs⟩

end Node.IsClause

/-! ## Names that a filter can spell -/

/-- A name of letters, digits and underscores that does not begin with a digit and is no keyword. -/
structure IsFieldName (name : String) : Prop where
  shape : Text.Pattern.Matches Lexeme.namePattern name.toList
  notKeyword : ∀ t : Terminal, t.isKeyword = true →
    Text.eqIgnoreAsciiCase name t.description = false

theorem Terminal.isFixed_of_isKeyword {t : Terminal} (h : t.isKeyword = true) :
    t.isFixed = true := by
  cases t with
  | dateTime | guid | name | number | quoted => cases h
  | _ => rfl

namespace Lexeme

theorem fold_eq_toLower {w : List Char} (h : Text.Pattern.Matches namePattern w) :
    w.map fold = w.map Char.toLower := by
  have hs : '\u017f' ∉ w := Text.Pattern.not_mem_of_avoids h (by decide)
  have hk : '\u212a' ∉ w := Text.Pattern.not_mem_of_avoids h (by decide)
  refine List.map_congr_left fun c hc => ?_
  have hcs : c ≠ '\u017f' := fun heq => hs (heq ▸ hc)
  have hck : c ≠ '\u212a' := fun heq => hk (heq ▸ hc)
  rw [fold, if_neg hcs, if_neg hck]

theorem matches_namePattern_of_whole {w : List Char} (h : Whole .name w) :
    Text.Pattern.Matches namePattern w := by
  obtain ⟨p, hp, hlongest⟩ := exists_class_of_front? h.front
  have hm := ((Text.Pattern.longest?_eq_some _ _ _).1 hlongest).2.1
  rw [List.take_length] at hm
  obtain rfl : p = namePattern := by simpa [lexemeClasses] using hp
  exact hm

theorem map_toLower_description {k : Terminal × Text.Pattern} (hk : k ∈ lexemeClasses)
    (h : k.1.isFixed = true) :
    k.1.description.toList.map Char.toLower = k.1.description.toList := by
  refine (List.map_congr_left fun c hc => ?_).trans (List.map_id _)
  have hplain := List.all_eq_true.1 (spelling k hk h).1 c hc
  simp only [isPlain, Bool.and_eq_true, beq_iff_eq] at hplain
  exact hplain.1.1

end Lexeme

/-- A filter that spells such a name is cut to it. -/
theorem IsFieldName.whole {name : String} (h : IsFieldName name) :
    Lexeme.Whole .name name.toList := by
  have hclass : (Terminal.name, Lexeme.namePattern) ∈ lexemeClasses := by simp [lexemeClasses]
  obtain ⟨c, v, hcv, -⟩ := Lexeme.matches_namePattern h.shape
  have hne : name.toList ≠ [] := by
    rw [hcv]
    exact List.cons_ne_nil _ _
  have hwins : ∀ k ∈ lexemeClasses, Text.Pattern.Matches k.2 name.toList →
      k.1 = .name ∨ (k.1 = .name ∧ Terminal.name.isKeyword = true) := by
    intro k hk hm
    rcases Lexeme.eq_or_name_of_matches hk hclass hm h.shape with heq | hname | ⟨-, hword⟩
    · exact .inl heq
    · exact .inl hname.1
    · have hfixed := Terminal.isFixed_of_isKeyword hword
      have hsame : Text.eqIgnoreAsciiCase name k.1.description = true := by
        rw [Text.eqIgnoreAsciiCase_iff, Lexeme.map_toLower_description hk hfixed,
          ← Lexeme.fold_of_matches_fixed hk hfixed hm, Lexeme.fold_eq_toLower h.shape]
      rw [h.notKeyword k.1 hword] at hsame
      cases hsame
  have hleads : Lexeme.Leads (name.toList ++ []) .name name.toList := by
    rw [List.append_nil]
    exact ⟨List.prefix_refl _, hne, ⟨_, hclass, h.shape⟩, fun _ _ _ hv _ => hv.length_le, hwins⟩
  exact hleads.whole

/-! ## Examples -/

/-- The tree of the example for a field. -/
def FieldDescription.exampleTree (d : FieldDescription) : Node :=
  match d.type with
  | .string => .mkCall .contains (.field d.name) [.literal ⟨"value", .string⟩]
  | .number => .mkBinary (.compare .ge) (.field d.name) (.literal ⟨"10", .number⟩)
  | .boolean => .mkBinary (.compare .eq) (.field d.name) (.literal ⟨"true", .boolean⟩)
  | .dateTime => .mkBinary (.compare .gt) (.field d.name) (.literal ⟨"2024-01-01", .dateTime⟩)
  | .guid =>
    .mkBinary (.compare .eq) (.field d.name)
      (.literal ⟨"3fa85f64-5717-4562-b3fc-2c963f66afa6", .identifier⟩)

namespace Grammar

/-- A comparison is read from its three pieces with blanks between them. -/
theorem parse_comparison {s name : String} {c : Comparison} {t : Token} {v : Literal}
    (hname : IsFieldName name) (ht : Lexeme.Whole t.terminal t.text) (hv : Denotes t v)
    (hs : s.toList = name.toList ++ ' ' :: (c.symbol.toList ++ ' ' :: t.text)) :
    Node.parse s = .ok (.mkBinary (.compare c) (.field name) (.literal v)) := by
  have hop : Spells c.symbol.toList [⟨.compare c, c.symbol.toList⟩] :=
    .whole (whole_description (t := .compare c) (by cases c <;> decide))
  have hspells := (Spells.whole hname.whole).spaced (hop.spaced (.whole ht))
  rw [← hs] at hspells
  have hclause := ClauseTree.comparison name.toList c.symbol.toList c hv
  rw [String.ofList_toList] at hclause
  exact Node.parse_of_spells hspells (.conjunction (.negation (.primary (.clause hclause))))

theorem parse_contains {s name : String} {t : Token} {v : Literal}
    (hname : IsFieldName name) (ht : Lexeme.Whole t.terminal t.text) (hv : Denotes t v)
    (hs : s.toList = name.toList ++ ' ' :: ("@contains".toList ++ ' ' :: t.text)) :
    Node.parse s = .ok (.mkCall .contains (.field name) [.literal v]) := by
  have hop : Spells "@contains".toList [⟨.contains, "@contains".toList⟩] :=
    .whole (whole_description (t := .contains) (by decide))
  have hspells := (Spells.whole hname.whole).spaced (hop.spaced (.whole ht))
  rw [← hs] at hspells
  have hclause := ClauseTree.text name.toList (.contains "@contains".toList) (.bare hv)
  rw [callTree, String.ofList_toList] at hclause
  exact Node.parse_of_spells hspells (.conjunction (.negation (.primary (.clause hclause))))

end Grammar

namespace FieldDescription

theorem parse_example {d : FieldDescription} (h : IsFieldName d.name) :
    Node.parse d.example = .ok d.exampleTree := by
  obtain ⟨name, type, operators⟩ := d
  have h : IsFieldName name := h
  cases type with
  | string =>
    exact Grammar.parse_contains h (by decide) (.quoted "'value'".toList)
      (by simp [FieldDescription.example, String.toList_append])
  | number =>
    exact Grammar.parse_comparison h (by decide) (.number "10".toList)
      (by simp [FieldDescription.example, String.toList_append, Comparison.symbol])
  | boolean =>
    exact Grammar.parse_comparison h (by decide) (.trueWord "true".toList)
      (by simp [FieldDescription.example, String.toList_append, Comparison.symbol])
  | dateTime =>
    exact Grammar.parse_comparison h (by decide) (.dateTime "2024-01-01".toList)
      (by simp [FieldDescription.example, String.toList_append, Comparison.symbol])
  | guid =>
    exact Grammar.parse_comparison h (by decide)
      (.guid "3fa85f64-5717-4562-b3fc-2c963f66afa6".toList)
      (by simp [FieldDescription.example, String.toList_append, Comparison.symbol])

theorem isClause_exampleTree (d : FieldDescription) :
    ∃ symbol c ls vs, d.exampleTree.IsClause d.name symbol c ls ∧ c.permits d.type = true ∧
      Literal.Resolves d.type ls vs := by
  obtain ⟨name, type, operators⟩ := d
  have hone {l : Literal} (h : (l.resolve type).isSome = true) :
      ∃ vs, Literal.Resolves type [l] vs := by
    obtain ⟨v, hv⟩ := Option.isSome_iff_exists.1 h
    exact ⟨[v], by rw [Literal.Resolves, List.map_singleton, hv, List.map_singleton]⟩
  cases type with
  | string =>
    obtain ⟨vs, hvs⟩ := hone (l := ⟨"value", .string⟩) rfl
    exact ⟨_, _, _, vs, .call .contains [⟨"value", .string⟩] _ rfl, rfl, hvs⟩
  | number =>
    obtain ⟨vs, hvs⟩ := hone (l := ⟨"10", .number⟩) (by decide +kernel)
    exact ⟨_, _, _, vs, .comparison .ge _ _, rfl, hvs⟩
  | boolean =>
    obtain ⟨vs, hvs⟩ := hone (l := ⟨"true", .boolean⟩) rfl
    exact ⟨_, _, _, vs, .comparison .eq _ _, rfl, hvs⟩
  | dateTime =>
    obtain ⟨vs, hvs⟩ := hone (l := ⟨"2024-01-01", .dateTime⟩) (by decide)
    exact ⟨_, _, _, vs, .comparison .gt _ _, rfl, hvs⟩
  | guid =>
    obtain ⟨vs, hvs⟩ :=
      hone (l := ⟨"3fa85f64-5717-4562-b3fc-2c963f66afa6", .identifier⟩) (by decide)
    exact ⟨_, _, _, vs, .comparison .eq _ _, rfl, hvs⟩

theorem size_exampleTree (d : FieldDescription) : d.exampleTree.size = ⟨1, 1⟩ := by
  obtain ⟨name, type, operators⟩ := d
  cases type <;> rfl

/-- The example for a field of the map is a valid filter. -/
theorem validate_exampleTree {d : FieldDescription} (hd : d ∈ describeFields m)
    {limits : FilterLimits} (hdepth : 1 ≤ limits.maxDepth) (hcost : 1 ≤ limits.maxNodes) :
    d.exampleTree.validate m limits = .ok () := by
  obtain ⟨f, hmem, hopen, hdf⟩ := mem_describeFields.1 hd
  obtain ⟨symbol, c, ls, vs, hclause, hpermits, hvs⟩ := d.isClause_exampleTree
  have hname : f.name = d.name := by rw [hdf]
  have htype : f.type = d.type := by rw [hdf]
  have hfound : m.get? d.name = some f := by
    have hkey := m.fields.find?_key hmem
    rwa [Field.key, hname] at hkey
  rw [← htype] at hpermits hvs
  refine Node.validate_eq_ok.2 ⟨?_, ?_, hclause.wellTyped ⟨hfound, hopen, hpermits⟩ hvs⟩
  · rwa [Node.depth, size_exampleTree]
  · rwa [Node.cost, size_exampleTree]

/-- The fields that are kept are of different types, none of which was seen before. -/
theorem firstOfEachType_types (seen : List FieldType) (ds : List FieldDescription) :
    (firstOfEachType seen ds).Sublist ds ∧ ((firstOfEachType seen ds).map type).Nodup ∧
      ∀ t ∈ (firstOfEachType seen ds).map type, t ∉ seen := by
  fun_induction firstOfEachType seen ds with
  | case1 => exact ⟨.slnil, List.nodup_nil, List.forall_mem_nil _⟩
  | case2 seen d ds h ih => exact ⟨ih.1.cons d, ih.2⟩
  | case3 seen d ds h ih =>
    obtain ⟨hsub, hnodup, hnew⟩ := ih
    rw [List.map_cons]
    refine ⟨hsub.cons_cons d, List.nodup_cons.2 ⟨?_, hnodup⟩, List.forall_mem_cons.2 ⟨h, ?_⟩⟩
    · exact fun hmem => hnew _ hmem List.mem_cons_self
    · exact fun t ht hseen => hnew t ht (List.mem_cons_of_mem _ hseen)

end FieldDescription

/-- The fields that have an example. -/
def exampleFields (m : FieldMap α) : List FieldDescription :=
  (firstOfEachType [] (describeFields m)).take exampleCount

theorem exampleFields_sublist (m : FieldMap α) : (exampleFields m).Sublist (describeFields m) :=
  (List.take_sublist _ _).trans (FieldDescription.firstOfEachType_types [] _).1

/-- The examples are the last lines of the message that goes with an error. -/
theorem message_examples (m : FieldMap α) (e : FilterError) (h : describeFields m ≠ []) :
    ∃ head, (invalidFilter m e).message =
      head ++ "\nExamples:" ++ String.join ((filterExamples m).map ("\n  " ++ ·)) := by
  rw [invalidFilter, catalogueText]
  split
  · contradiction
  · exact ⟨_, by simp only [← String.append_assoc]; rfl⟩

/-- The catalogue is exactly what validation accepts: a clause with the right number of literals,
all with values at the type of its field, is valid exactly if its operator is listed with the
field. The examples in the message of an error are at most three, of fields of different types, and
each passes the check, if fields that are open to filters have names that a filter can spell. -/
theorem catalogue_exact (m : FieldMap α) :
    (∀ (limits : FilterLimits) (n : Node) (name symbol : String) (c : OperatorClass)
        (ls : List Literal), n.IsClause name symbol c ls → n.depth ≤ limits.maxDepth →
      n.cost ≤ limits.maxNodes →
      (∀ f, m.get? name = some f → ∃ vs, Literal.Resolves f.type ls vs) →
      (n.validate m limits = .ok () ↔
        ∃ d ∈ describeFields m, Text.lower d.name = Text.lower name ∧ symbol ∈ d.operators)) ∧
    (∃ ds : List FieldDescription, ds.Sublist (describeFields m) ∧
      filterExamples m = ds.map FieldDescription.example ∧
      ds.length ≤ 3 ∧ (ds.map FieldDescription.type).Nodup) ∧
    (describeFields m ≠ [] → ∀ e, ∃ head, (invalidFilter m e).message =
      head ++ "\nExamples:" ++ String.join ((filterExamples m).map ("\n  " ++ ·))) ∧
    ((∀ f ∈ m.fields.entries, f.canFilter = true → IsFieldName f.name) →
      ∀ limits : FilterLimits, 1 ≤ limits.maxDepth → 1 ≤ limits.maxNodes →
        ∀ x ∈ filterExamples m, x.length ≤ limits.maxLength →
          ∃ n, checkFilter m limits x = .ok n) := by
  refine ⟨fun limits n name symbol c ls h => h.validate_eq_ok_iff,
    ⟨exampleFields m, exampleFields_sublist m, rfl, List.length_take_le _ _, ?_⟩,
    fun hne e => message_examples m e hne, ?_⟩
  · obtain ⟨-, hnodup, -⟩ := FieldDescription.firstOfEachType_types [] (describeFields m)
    exact hnodup.sublist ((List.take_sublist _ _).map _)
  · intro hnames limits hdepth hcost x hx hshort
    obtain ⟨d, hd, rfl⟩ := List.mem_map.1 hx
    have hd := (exampleFields_sublist m).subset hd
    obtain ⟨f, hmem, hopen, hdf⟩ := mem_describeFields.1 hd
    have hname : IsFieldName d.name := by
      rw [hdf]
      exact hnames f hmem hopen
    exact ⟨d.exampleTree, checkFilter_of_parse hshort (FieldDescription.parse_example hname)
      (FieldDescription.validate_exampleTree hd hdepth hcost)⟩

theorem partMap_isFieldName :
    ∀ f ∈ partMap.fields.entries, f.canFilter = true → IsFieldName f.name := by
  have hwhole : ∀ f ∈ partFields, Lexeme.Whole .name f.name.toList := by decide
  have hwords : ∀ f ∈ partFields, ∀ t ∈ Terminal.every, t.isKeyword = true →
      Text.eqIgnoreAsciiCase f.name t.description = false := by decide
  intro f hf _
  refine ⟨Lexeme.matches_namePattern_of_whole (hwhole f hf), fun t => hwords f hf t t.mem_every⟩

/-- `in` is listed with the field `name`, whatever the case of the name in the clause. -/
theorem catalogue_exact_partMap :
    (Node.mkCall .isIn (.field "NAME") [.literal ⟨"a", .string⟩, .literal ⟨"b", .string⟩]).validate
        partMap {} = .ok () ∧
      filterExamples partMap =
        ["name @contains 'value'", "netSize >= 10", "madeAt > 2024-01-01"] ∧
      ∀ x ∈ filterExamples partMap, ∃ n, checkFilter partMap {} x = .ok n := by
  obtain ⟨hclause, -, -, hexamples⟩ := catalogue_exact partMap
  have hlist : filterExamples partMap =
      ["name @contains 'value'", "netSize >= 10", "madeAt > 2024-01-01"] := by decide
  refine ⟨?_, hlist, fun x hx => ?_⟩
  · refine (hclause {} _ "NAME" _ _ _ (.call .isIn [⟨"a", .string⟩, ⟨"b", .string⟩] _ rfl)
      (by decide) (by decide) fun f hf => ?_).2 (by decide)
    have htype : (partMap.get? "NAME").map (·.type) = some .string := by decide
    rw [hf] at htype
    have htype : f.type = .string := Option.some.inj htype
    rw [htype]
    exact ⟨[.string "a", .string "b"], rfl⟩
  · have hshort : ∀ x ∈ filterExamples partMap, x.length ≤ 4096 := by
      rw [hlist]
      decide
    exact hexamples partMap_isFieldName {} (by decide) (by decide) x hx (hshort x hx)

end EntityQuery
