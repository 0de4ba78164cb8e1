import EntityQuery.Filter.BindDocument
import EntityQuery.Proofs.Document.Join
import EntityQuery.Proofs.Document.Lookup
import EntityQuery.Proofs.Filter.Typing
import EntityQuery.Proofs.Json.Nested

/-!
# Flat joins

Joining document filters keeps what they select, however they are shaped, and one operator joins
associatively. In a filter that a tree was bound to, no list of joined filters holds a join by the
same operator (`DocumentFilter.flattening`): joining takes such lists apart, and all else that
binding writes has no lists of filters but those below `$nor`.
-/

namespace EntityQuery

variable {α : Type} {m : FieldMap α}

/-! ## Flat JSON -/

namespace Json

/-- The operators whose lists are put together. -/
def runOperators : List String := ["$and", "$or"]

/-- An object with the operator for its only member. -/
def IsJoin (op : String) (j : Json) : Prop := ∃ inner, j = .object [(op, inner)]

/-- Whatever list a run operator has in the object, no join by that operator stands in it. -/
def NestsNoJoin (j : Json) : Prop :=
  ∀ op ∈ runOperators, ∀ ms items, j = .object ms → (op, .array items) ∈ ms →
    ∀ f ∈ items, ¬ IsJoin op f

/-- No join stands right in the list of another one by the same operator, at any depth. -/
def Flat (j : Json) : Prop := j.Everywhere NestsNoJoin

theorem flat_iff {j : Json} : j.Flat ↔ j.NestsNoJoin ∧ ∀ c ∈ j.children, c.Flat := everywhere_iff

theorem flat_of_leaf {j : Json} (h : j.children = []) : j.Flat := by
  refine flat_iff.2 ⟨?_, fun c hc => absurd (h ▸ hc) List.not_mem_nil⟩
  rintro op - ms items rfl hmem
  obtain rfl := List.map_eq_nil_iff.1 h
  exact absurd hmem List.not_mem_nil

theorem flat_array {js : List Json} (h : ∀ j ∈ js, j.Flat) : (array js).Flat := by
  refine flat_iff.2 ⟨?_, h⟩
  rintro op - ms items ⟨⟩

theorem flat_object {ms : List (String × Json)} (h : ∀ x ∈ ms, x.2.Flat)
    (hroot : (object ms).NestsNoJoin) : (object ms).Flat :=
  flat_iff.2 ⟨hroot, List.forall_mem_map.2 h⟩

/-- The members of an object that holds no joins: other names, and flat values. -/
def HoldsNoJoin (ms : List (String × Json)) : Prop := ∀ x ∈ ms, x.1 ∉ runOperators ∧ x.2.Flat

theorem HoldsNoJoin.flat {ms : List (String × Json)} (h : HoldsNoJoin ms) : (object ms).Flat := by
  refine flat_object (fun x hx => (h x hx).2) ?_
  rintro op hop ms items ⟨⟩ hmem
  exact absurd hop (h _ hmem).1

theorem holdsNoJoin_single (name : String) {j : Json} (hname : name ∉ runOperators)
    (hj : j.Flat) : HoldsNoJoin [(name, j)] :=
  List.forall_mem_singleton.2 ⟨hname, hj⟩

end Json

theorem Value.flat_toDocument (v : Value) : v.toDocument.Flat := by
  cases v with
  | dateTime i | guid g =>
    exact (Json.holdsNoJoin_single _ (by decide) (Json.flat_of_leaf rfl)).flat
  | number x =>
    have hleaf : (numberToJson x).children = [] := by
      unfold numberToJson
      split
      · rfl
      · split <;> rfl
    exact Json.flat_of_leaf hleaf
  | null | string _ | boolean _ => exact Json.flat_of_leaf rfl

/-! ## Conditions -/

namespace Node

/-- A condition on a path is an object without joins. -/
def IsCondition (c : Json) : Prop := ∃ ms, c = .object ms ∧ Json.HoldsNoJoin ms

theorem isCondition_single {op : String} {j : Json} (hop : op ∉ Json.runOperators) (hj : j.Flat) :
    IsCondition (.object [(op, j)]) :=
  ⟨_, rfl, Json.holdsNoJoin_single op hop hj⟩

theorem flat_documents (vs : List Value) : (Json.array (vs.map Value.toDocument)).Flat :=
  Json.flat_array (List.forall_mem_map.2 fun v _ => v.flat_toDocument)

theorem isCondition_patternCondition {f : Field α} {op : CallOp} {front back : String}
    {vs : List Value} {c : Json} (h : patternCondition f op front back vs = .ok c) :
    IsCondition c := by
  unfold patternCondition at h
  split at h
  · cases h
    exact isCondition_single (by decide) (Json.flat_of_leaf rfl)
  · cases h

theorem isCondition_callCondition {f : Field α} {op : CallOp} {vs : List Value} {c : Json}
    (h : callCondition f op vs = .ok c) : IsCondition c := by
  cases op with
  | contains | startsWith | endsWith => exact isCondition_patternCondition h
  | notContains =>
    obtain ⟨d, hd, h⟩ := Except.bind_eq_ok h
    cases h
    obtain ⟨ms, rfl, hms⟩ := isCondition_patternCondition hd
    exact isCondition_single (by decide) hms.flat
  | isIn | notIn =>
    cases h
    exact isCondition_single (by decide) (flat_documents vs)
  | between =>
    rcases vs with _ | ⟨low, _ | ⟨high, _ | ⟨third, rest⟩⟩⟩
    · cases h
    · cases h
    · cases h
      have hlow := Json.holdsNoJoin_single "$gte" (by decide) low.flat_toDocument
      have hhigh := Json.holdsNoJoin_single "$lte" (by decide) high.flat_toDocument
      exact ⟨_, rfl, List.forall_mem_append.2 ⟨hlow, hhigh⟩⟩
    · cases h
  | isNull | isNotNull =>
    cases h
    exact isCondition_single (by decide) (Json.flat_of_leaf rfl)

theorem comparisonKey_not_mem (c : Comparison) : comparisonKey c ∉ Json.runOperators := by
  cases c <;> decide

end Node

/-! ## Filters -/

namespace DocumentFilter

/-- A path may even be called like a join operator: what it has is a condition, not a list. -/
theorem flat_field (path : String) {c : Json} (hc : Node.IsCondition c) :
    (field path c).json.Flat := by
  obtain ⟨ms, rfl, hms⟩ := hc
  refine Json.flat_object (List.forall_mem_singleton.2 hms.flat) ?_
  rintro op - ms' items ⟨⟩ hmem
  cases List.mem_singleton.1 hmem

theorem flat_negate {f : DocumentFilter} (hf : f.json.Flat) : f.negate.json.Flat :=
  (Json.holdsNoJoin_single _ (by decide) (Json.flat_array (List.forall_mem_singleton.2 hf))).flat

/-- The parts of a flat filter are flat, and no joins by the operator. -/
theorem flat_of_mem_parts {op : String} (hop : op ∈ Json.runOperators) {j part : Json}
    (hj : j.Flat) (hpart : part ∈ parts op j) : part.Flat ∧ ¬ Json.IsJoin op part := by
  have hwhole : (∀ inner, j ≠ .object [(op, inner)]) → part ∈ [j] →
      part.Flat ∧ ¬ Json.IsJoin op part := by
    rintro hne hpart
    obtain rfl := List.mem_singleton.1 hpart
    exact ⟨hj, fun ⟨inner, hinner⟩ => hne inner hinner⟩
  unfold parts at hpart
  split at hpart
  · rename_i key inner
    split at hpart
    · rename_i hkey
      subst hkey
      obtain ⟨hroot, hbelow⟩ := Json.flat_iff.1 hj
      cases inner with
      | array items =>
        have hitems : (Json.array items).Flat := hbelow _ List.mem_cons_self
        exact ⟨(Json.flat_iff.1 hitems).2 part hpart,
          hroot key hop _ items rfl List.mem_cons_self part hpart⟩
      | null | bool | int | float | string | object => exact absurd hpart List.not_mem_nil
    · rename_i hkey
      exact hwhole (fun inner' h => hkey (by cases h; rfl)) hpart
  · rename_i hne
    exact hwhole (fun inner => hne op inner) hpart

theorem flat_join {op : String} (hop : op ∈ Json.runOperators) {f g : DocumentFilter}
    (hf : f.json.Flat) (hg : g.json.Flat) : (join op f g).json.Flat := by
  have hparts : ∀ part ∈ parts op f.json ++ parts op g.json,
      part.Flat ∧ ¬ Json.IsJoin op part :=
    List.forall_mem_append.2
      ⟨fun _ => flat_of_mem_parts hop hf, fun _ => flat_of_mem_parts hop hg⟩
  refine Json.flat_object
    (List.forall_mem_singleton.2 (Json.flat_array fun part h => (hparts part h).1)) ?_
  rintro op' - ms items ⟨⟩ hmem
  cases List.mem_singleton.1 hmem
  exact fun part h => (hparts part h).2

end DocumentFilter

/-- Whatever a tree binds to is flat. -/
theorem Node.flat_toDocumentFilter {n : Node} {f : DocumentFilter}
    (h : n.toDocumentFilter m = .ok f) : f.json.Flat := by
  induction n using clauseInduction generalizing f with
  | literal l | field name => cases h
  | group n s ih => exact ih h
  | negation n s ih =>
    obtain ⟨g, hg, h⟩ := Except.bind_eq_ok h
    cases h
    exact DocumentFilter.flat_negate (ih hg)
  | and l r s ihl ihr | or l r s ihl ihr =>
    obtain ⟨g, hg, h⟩ := Except.bind_eq_ok h
    obtain ⟨g', hg', h⟩ := Except.bind_eq_ok h
    cases h
    exact DocumentFilter.flat_join (by decide) (ihl hg) (ihr hg')
  | compare c l r s =>
    obtain ⟨field, -, h⟩ := Except.bind_eq_ok h
    obtain ⟨v, -, h⟩ := Except.bind_eq_ok h
    cases h
    exact DocumentFilter.flat_field _
      (isCondition_single (comparisonKey_not_mem c) v.flat_toDocument)
  | call op t args s =>
    obtain ⟨field, -, h⟩ := Except.bind_eq_ok h
    obtain ⟨vs, -, h⟩ := Except.bind_eq_ok h
    obtain ⟨c, hc, h⟩ := Except.bind_eq_ok h
    cases h
    exact DocumentFilter.flat_field _ (isCondition_callCondition hc)

namespace DocumentFilter

/-- Whatever JSON two filters are, their join by `$and` selects what both select and by `$or` what
one of them does, and a negation selects all else. How a run of joins by one operator was
bracketed cannot be seen. A filter that a tree was bound to, whatever the paths of its map are, has
all such runs in one list. -/
theorem flattening (m : FieldMap α) :
    (∀ (f g : DocumentFilter) (doc : Json),
      ((join "$and" f g).selects doc = true ↔ f.selects doc = true ∧ g.selects doc = true) ∧
        ((join "$or" f g).selects doc = true ↔ f.selects doc = true ∨ g.selects doc = true) ∧
        (f.negate.selects doc = true ↔ ¬ f.selects doc = true)) ∧
      (∀ (op : String) (f g h : DocumentFilter),
        join op (join op f g) h = join op f (join op g h)) ∧
      ∀ (n : Node) (f : DocumentFilter), n.toDocumentFilter m = .ok f → f.json.Flat := by
  refine ⟨fun f g doc => ?_, join_assoc, fun n f => Node.flat_toDocumentFilter⟩
  rw [selects_join_and, selects_join_or, selects_negate, Bool.and_eq_true, Bool.or_eq_true,
    Bool.not_eq_true', Bool.not_eq_true]
  exact ⟨Iff.rfl, Iff.rfl, Iff.rfl⟩

/-- A disjunction in a group behind another `or`. -/
def nestedRun : Node :=
  .mkBinary .or (.mkCall .isNull (.field "netSize") [])
    (.mkGroup (.mkBinary .or (.mkCall .contains (.field "name") [.literal ⟨"a", .string⟩])
      (.mkCall .contains (.field "name") [.literal ⟨"b", .string⟩])))

def flatRun : Json :=
  .object [("$or", .array
    [.object [("netSize", .object [("$eq", .null)])],
      .object [("name", .object [("$regex", .string "a")])],
      .object [("name", .object [("$regex", .string "b")])]])]

/-- All three tests stand in one list. -/
theorem flattening_nestedRun :
    nestedRun.toDocumentFilter partMap = .ok ⟨flatRun⟩ ∧ flatRun.Flat :=
  ⟨rfl, (flattening partMap).2.2 nestedRun ⟨flatRun⟩ rfl⟩

end DocumentFilter

end EntityQuery
