import EntityQuery.Proofs.Query.Loading
import EntityQuery.Proofs.Query.Order
import Mathlib.Data.List.Sort

/-!
# Included relations are a set

The names of a set ascend strictly (`IncludeSet.ascends_parse`), whatever the text they come from. A
list that ascends strictly is known by its members, so a text matters through the relations that it
includes and in no other way (`IncludeSet.parse_congr`): neither their order nor their case, nor how
often a part names one, nor a part that names none.
-/

namespace EntityQuery

variable {α : Type}

namespace IncludeSet

/-! ## Ascending names -/

/-- The name comes before the other, by the numbers of their characters. -/
def Before (n n' : String) : Prop := Value.compareText n n' = .lt

instance : Std.Irrefl Before where
  irrefl n h := by
    have heq : Value.compareText n n = .eq := Std.compare_eq_iff_eq.2 rfl
    rw [Before, heq] at h
    cases h

instance : Std.Asymm Before where
  asymm n n' h h' := by
    rw [Before, ← Value.compareText_swap, h'] at h
    cases h

theorem Before.trans {n n' n'' : String} (h : Before n n') (h' : Before n' n'') :
    Before n n'' := by
  have htrans : compare n.toList n''.toList = .lt := Std.TransCmp.lt_trans h h'
  exact htrans

theorem before_of_gt {n n' : String} (h : Value.compareText n n' = .gt) : Before n' n := by
  rw [Before, ← Value.compareText_swap, h]
  rfl

/-- Every name comes before those behind it. -/
def Ascends (ns : List String) : Prop := ns.Pairwise Before

theorem Ascends.nodup {ns : List String} (h : Ascends ns) : ns.Nodup := by
  refine List.Pairwise.imp (fun {n n'} hbefore heq => ?_) h
  rw [heq] at hbefore
  exact irrefl_of Before n' hbefore

theorem ascends_insertName {name : String} {ns : List String} (h : Ascends ns) :
    Ascends (insertName name ns) := by
  induction ns with
  | nil => exact List.pairwise_singleton _ _
  | cons n ns ih =>
    obtain ⟨hn, hns⟩ := List.pairwise_cons.1 h
    unfold insertName
    split
    · rename_i hlt
      refine List.pairwise_cons.2 ⟨fun k hk => ?_, h⟩
      rcases List.mem_cons.1 hk with rfl | hk
      · exact hlt
      · exact Before.trans hlt (hn k hk)
    · exact h
    · rename_i hgt
      refine List.pairwise_cons.2 ⟨fun k hk => ?_, ih hns⟩
      rcases mem_insertName.1 hk with rfl | hk
      · exact before_of_gt hgt
      · exact hn k hk

theorem ascends_foldl_insertName {known ns : List String} (h : Ascends ns) :
    Ascends (known.foldl (fun ns n => insertName n ns) ns) := by
  induction known generalizing ns with
  | nil => exact h
  | cons n known ih => exact ih (ascends_insertName h)

variable {m : FieldMap α} {text text' : Option String}

theorem ascends_parse (m : FieldMap α) (text : Option String) : Ascends (parse m text).names :=
  ascends_foldl_insertName List.Pairwise.nil

/-- Texts that include the same relations of the map give one set. -/
theorem parse_congr (h : ∀ r ∈ m.relations.entries, r.Included text ↔ r.Included text') :
    parse m text = parse m text' := by
  have hnames : (parse m text).names = (parse m text').names := by
    refine (ascends_parse m text).eq_of_mem_iff (ascends_parse m text') fun n => ?_
    rw [mem_names_parse, mem_names_parse]
    refine exists_congr fun r => and_congr_right fun hr => ?_
    rw [h r hr]
  exact congrArg IncludeSet.mk hnames

/-! ## The relations of a set -/

/-- The relations are those that the text includes, each once and in the order of their names. -/
structure Members (m : FieldMap α) (text : Option String) (rs : List (Relation α)) : Prop where
  mem : ∀ r, r ∈ rs ↔ r ∈ m.relations.entries ∧ r.Included text
  ascends : Ascends (rs.map (·.key))
  nodup : rs.Nodup

end IncludeSet

namespace CompiledQuery

open IncludeSet Sql

variable {m : FieldMap α}

end CompiledQuery

end EntityQuery
