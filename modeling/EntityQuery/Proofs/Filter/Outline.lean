import EntityQuery.Proofs.Filter.Fitting
import EntityQuery.Proofs.Filter.Reading

/-!
# Outlines and literals

The outline of a filter is its tree without what stands in its literals, and with each field under
the one name that the map has for it (`Node.outline`). The tests of a filter are its clauses with
their literals, from left to right. This is the order in which they stand in the text, where the
name of the field comes first (`Node.literals_of_parse`).
-/

namespace EntityQuery

variable {α : Type} {m : FieldMap α}

/-! ## Outlines -/

/-- Stands where a literal was. -/
def Literal.hole : Literal := ⟨"", .string⟩

namespace Node

mutual

/-- The tree with holes for literals, and with each field by its name in the map. -/
def outline (m : FieldMap α) : Node → Node
  | literal _ => literal .hole
  | field name => field (((m.get? name).map Field.name).getD name)
  | negation n s => negation (n.outline m) s
  | binary op l r s => binary op (l.outline m) (r.outline m) s
  | call op t args s => call op (t.outline m) (outlineAll m args) s
  | group n s => group (n.outline m) s

def outlineAll (m : FieldMap α) : List Node → List Node
  | [] => []
  | n :: ns => n.outline m :: outlineAll m ns

end

theorem length_outlineAll (ns : List Node) : (outlineAll m ns).length = ns.length := by
  induction ns with
  | nil => rfl
  | cons n ns ih => rw [outlineAll, List.length_cons, ih, List.length_cons]

/-- Names with one outline stand for one field. -/
theorem eq_of_outline_field {name name' : String} {f f' : Field α} (h : m.get? name = some f)
    (h' : m.get? name' = some f') (heq : (field name).outline m = (field name').outline m) :
    f = f' := by
  rw [outline, outline, h, h'] at heq
  have hname : f.name = f'.name := Node.field.inj heq
  have hkey : f.key = f'.key := congrArg Text.lower hname
  have hf := m.fields.find?_key (FieldMap.mem_of_get? h)
  have hf' := m.fields.find?_key (FieldMap.mem_of_get? h')
  rw [hkey, hf'] at hf
  exact (Option.some.inj hf).symm

end Node

/-! ## Tests -/

/-- What a clause puts to a field: literals to compare it with, or to look for in it. -/
structure FieldTest where
  name : String
  /-- How the literal is looked for, if it is not compared. -/
  search : Option TextTest
  literals : List Literal

/-- The name of the field and the literals, all as they stand in the text. -/
def FieldTest.words (t : FieldTest) : List Literal := ⟨t.name, .identifier⟩ :: t.literals

def CallOp.search? : CallOp → Option TextTest
  | contains | notContains => some .contains
  | startsWith => some .startsWith
  | endsWith => some .endsWith
  | isIn | notIn | between | isNull | isNotNull => none

namespace Node

def literal? : Node → Option Literal
  | literal l => some l
  | _ => none

/-- The tests of a tree from left to right. -/
def tests : Node → List FieldTest
  | literal _ | field _ => []
  | negation n _ | group n _ => n.tests
  | binary .and l r _ | binary .or l r _ => l.tests ++ r.tests
  | binary (.compare _) l r _ => [⟨l.text, none, r.literal?.toList⟩]
  | call op t args _ => [⟨t.text, op.search?, args.filterMap literal?⟩]

theorem filterMap_literal? (ls : List Literal) : (ls.map literal).filterMap literal? = ls := by
  rw [List.filterMap_map]
  exact List.filterMap_some

theorem tests_call (op : CallOp) (name : String) (ls : List Literal) (s : Size) :
    (call op (field name) (ls.map literal) s).tests = [⟨name, op.search?, ls⟩] := by
  rw [tests, filterMap_literal?, text]

end Node

/-! ## The order of the text -/

namespace Grammar

/-- The literal that a token stands for, or would stand for if it is a name. -/
def word? (t : Token) : Option Literal := Clause.literal? ⟨t.terminal, t.text, 0⟩

theorem Denotes.word? {t : Token} {v : Literal} (h : Denotes t v) : word? t = some v :=
  Clause.literal?_eq_some.2 h

theorem word?_name (f : List Char) :
    word? ⟨.name, f⟩ = some ⟨String.ofList f, .identifier⟩ := rfl

theorem words_closed (w : List Token) (r : List Char) :
    (w ++ [(⟨.rightParen, r⟩ : Token)]).filterMap word? = w.filterMap word? := by
  rw [List.filterMap_append]
  exact List.append_nil _

theorem Items.words {w : List Token} {vs : List Literal} (h : Items w vs) :
    w.filterMap word? = vs := by
  induction h with
  | last h => rw [List.filterMap_cons_some h.word?, List.filterMap_nil]
  | more h _ ih =>
    rw [List.filterMap_cons_some h.word?, List.filterMap_cons_none rfl, ih]

theorem OneArgument.words {a : List Token} {v : Literal} (h : OneArgument a v) :
    a.filterMap word? = [v] := by
  cases h with
  | bare h => exact (Items.last h).words
  | wrapped h =>
    rw [List.filterMap_cons_none rfl, List.filterMap_cons_some h.word?,
      List.filterMap_cons_none rfl, List.filterMap_nil]

theorem TextOperator.words {o : List Token} {op : CallOp} (h : TextOperator o op) :
    o.filterMap word? = [] := by
  cases h <;> rfl

theorem ListOperator.words {o : List Token} {op : CallOp} (h : ListOperator o op) :
    o.filterMap word? = [] := by
  cases h <;> rfl

/-- Behind the name of its field stand the literals of a clause. -/
theorem ClauseTree.words {w : List Token} {n : Node} (h : ClauseTree w n) :
    w.filterMap word? = n.tests.flatMap FieldTest.words := by
  cases h with
  | comparison f k c h =>
    rw [List.filterMap_cons_some (word?_name f), List.filterMap_cons_none rfl, (Items.last h).words]
    rfl
  | @text o a op v f ho ha =>
    rw [List.filterMap_cons_some (word?_name f), List.filterMap_append, ho.words, ha.words,
      callTree, Node.mkCall, Node.tests_call]
    rfl
  | @list o w op vs f l r ho h =>
    rw [List.filterMap_cons_some (word?_name f), List.filterMap_append, ho.words,
      List.filterMap_cons_none rfl, words_closed, h.words, callTree, Node.mkCall, Node.tests_call,
      List.nil_append, List.flatMap_singleton, FieldTest.words]
  | @between t u low high f k l c r hl hh =>
    rw [List.filterMap_cons_some (word?_name f), List.filterMap_cons_none rfl,
      List.filterMap_cons_none rfl, List.filterMap_cons_some hl.word?, List.filterMap_cons_none rfl,
      List.filterMap_cons_some hh.word?, List.filterMap_cons_none rfl]
    rfl
  | isNull f j k => rfl
  | isNotNull f i j k => rfl

/-- The names and literals of a phrase are those of the tests of its tree, in order. -/
theorem Derives.words {p : Phrase} {w : List Token} {n : Node} (h : Derives p w n) :
    w.filterMap word? = n.tests.flatMap FieldTest.words := by
  induction h with
  | or k _ _ ihl ihr | and k _ _ ihl ihr =>
    rw [List.filterMap_append, List.filterMap_cons_none rfl, ihl, ihr, Node.mkBinary, Node.tests,
      List.flatMap_append]
  | conjunction _ ih | negation _ ih | primary _ ih => exact ih
  | not k _ ih => rw [List.filterMap_cons_none rfl, ih, Node.mkNot, Node.tests]
  | clause h => exact h.words
  | @group w n l r _ ih =>
    rw [List.filterMap_cons_none rfl, words_closed, ih, Node.mkGroup, Node.tests]

end Grammar

/-- A filter that is read has its names and literals in the order of its text. -/
theorem Node.literals_of_parse {s : String} {n : Node} (h : Node.parse s = .ok n) :
    (Cut.ofText s).lexemes.filterMap Clause.literal? = n.tests.flatMap FieldTest.words := by
  obtain ⟨ls, hls, hsentence⟩ := Node.parse_eq_ok.1 h
  rw [hls, ← hsentence.words, List.filterMap_map]
  rfl

end EntityQuery
