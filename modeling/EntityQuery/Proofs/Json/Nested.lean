import EntityQuery.Json.Basic
import Mathlib.Logic.Relation

/-!
# Inside a JSON value

The children of a JSON value are the items of an array or the values of an object's members.
`Json.OccursIn` leads from a value to everything in it, so that `Json.Everywhere P` says `P` of each
value at any depth.
-/

namespace EntityQuery

/-- What leads to `b` step by step is `b` itself, or leads to the start of the last step. -/
theorem forall_reflTransGen_iff {α : Type} {r : α → α → Prop} {P : α → Prop} {b : α} :
    (∀ a, Relation.ReflTransGen r a b → P a) ↔
      P b ∧ ∀ c, r c b → ∀ a, Relation.ReflTransGen r a c → P a := by
  constructor
  · exact fun h => ⟨h b .refl, fun c hc a ha => h a (ha.tail hc)⟩
  · rintro ⟨hb, hbelow⟩ a ha
    rcases (Relation.ReflTransGen.cases_tail_iff r a b).1 ha with rfl | ⟨c, hac, hc⟩
    · exact hb
    · exact hbelow c hc a hac

namespace Json

def children : Json → List Json
  | array js => js
  | object ms => ms.map Prod.snd
  | _ => []

/-- What passes from the children of a value to the value holds of every value. -/
theorem induction_children {P : Json → Prop} (step : ∀ j, (∀ c ∈ j.children, P c) → P j)
    (j : Json) : P j := by
  have hleaf : ∀ j : Json, j.children = [] → P j := fun j h =>
    step j fun c hc => absurd (h ▸ hc) List.not_mem_nil
  exact @Json.rec P (fun js => ∀ j ∈ js, P j) (fun ms => ∀ j ∈ ms.map Prod.snd, P j)
    (fun m => P m.2) (hleaf _ rfl) (fun _ => hleaf _ rfl) (fun _ => hleaf _ rfl)
    (fun _ => hleaf _ rfl) (fun _ => hleaf _ rfl) (fun _ h => step _ h) (fun _ h => step _ h)
    (fun _ h => absurd h List.not_mem_nil) (fun _ _ hj hjs => List.forall_mem_cons.2 ⟨hj, hjs⟩)
    (fun _ h => absurd h List.not_mem_nil) (fun _ _ hm hms => List.forall_mem_cons.2 ⟨hm, hms⟩)
    (fun _ _ h => h) j

/-- The value stands in the other one, at its root or at any depth. -/
def OccursIn : Json → Json → Prop := Relation.ReflTransGen fun c j => c ∈ j.children

def Everywhere (P : Json → Prop) (j : Json) : Prop := ∀ k : Json, k.OccursIn j → P k

theorem everywhere_iff {P : Json → Prop} {j : Json} :
    j.Everywhere P ↔ P j ∧ ∀ c ∈ j.children, c.Everywhere P :=
  forall_reflTransGen_iff

end Json

end EntityQuery
