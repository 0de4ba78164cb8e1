import EntityQuery.Proofs.Filter.Fitting
import EntityQuery.Proofs.Guid.Spelling
import EntityQuery.Proofs.Number.Spelling
import EntityQuery.Proofs.Text.Case
import EntityQuery.Proofs.Time.Recognizing
import EntityQuery.Proofs.Time.Unambiguous

/-!
# What literals denote

`Value.SpelledBy` says which texts are spellings of a value; a text is a spelling of one value of a
type only (`Value.SpelledBy.unique`). A literal is read at a type as the value that its text spells,
and not at all if there is none (`Literal.resolve_spelledBy`), except for literals that are boolean
by their kind but not by their text: these are read as false (`Literal.MisreadAt`).
-/

namespace EntityQuery

/-- The text is a spelling of the value. -/
inductive Value.SpelledBy : Value → String → Prop where
  | string {s : String} : SpelledBy (.string s) s
  | number {x : Number} {d : Decimal} {s : String} : x.isFinite = true →
      DecimalText s.toList d → d.RoundsTo x → SpelledBy (.number x) s
  | true {s : String} : s.toList.map Char.toLower = "true".toList → SpelledBy (.boolean true) s
  | false {s : String} : s.toList.map Char.toLower = "false".toList → SpelledBy (.boolean false) s
  | dateTime {i : Instant} {s : String} : i.SpelledBy s.toList → SpelledBy (.dateTime i) s
  | guid {g : Guid} {s : String} : g.SpelledBy s.toList → SpelledBy (.guid g) s

/-- A text is a spelling of one value of a type only. -/
theorem Value.SpelledBy.unique {v w : Value} {t : FieldType} {s : String} (h : v.SpelledBy s)
    (hv : v.HasType t) (hw : w.HasType t) (h' : w.SpelledBy s) : v = w := by
  have htype : v.type? = w.type? := hv.type.trans hw.type.symm
  cases h with
  | string =>
    cases h' with
    | string => rfl
    | number | true | false | dateTime | guid => cases htype
  | number _ hd hx =>
    cases h' with
    | number _ hd' hy =>
      obtain rfl := hd.unique hd'
      rw [hx.unique hy]
    | string | true | false | dateTime | guid => cases htype
  | true htrue =>
    cases h' with
    | true => rfl
    | false hfalse => exact absurd (htrue.symm.trans hfalse) (by decide)
    | string | number | dateTime | guid => cases htype
  | false hfalse =>
    cases h' with
    | false => rfl
    | true htrue => exact absurd (htrue.symm.trans hfalse) (by decide)
    | string | number | dateTime | guid => cases htype
  | dateTime hi =>
    cases h' with
    | dateTime hj => rw [hi.unique hj]
    | string | number | true | false | guid => cases htype
  | guid hg =>
    cases h' with
    | guid hg' => rw [hg.unique hg']
    | string | number | true | false | dateTime => cases htype

namespace Literal

/-- A boolean is asked for, and the literal is one by its kind but not by its text. -/
structure MisreadAt (l : Literal) (t : FieldType) : Prop where
  type : t = .boolean
  kind : l.kind = .boolean
  text : ∀ b, ¬ (Value.boolean b).SpelledBy l.text

variable {l : Literal} {t : FieldType} {v : Value}

theorem StandsFor.fits (h : l.StandsFor t v) : l.kind.Fits t := by
  cases h with
  | string hkind | number hkind | boolean hkind | dateTime hkind | guid hkind => exact hkind

theorem StandsFor.spelledBy (h : l.StandsFor t v) (hread : ¬ l.MisreadAt t) :
    v.SpelledBy l.text := by
  cases h with
  | string => exact .string
  | number _ hx hfinite =>
    obtain ⟨d, htext, hround⟩ := (Number.read?_eq_some_iff hfinite).1 hx
    exact .number hfinite htext hround
  | boolean hkind =>
    by_cases htrue : Text.eqIgnoreAsciiCase l.text "true" = true
    · rw [htrue]
      exact .true (Text.eqIgnoreAsciiCase_iff.1 htrue)
    · rw [Bool.eq_false_iff.2 htrue]
      -- only the spelling of `false` is left
      refine Classical.byContradiction fun hfalse => hread ⟨rfl, hkind, fun b hb => ?_⟩
      cases hb with
      | true h => exact htrue (Text.eqIgnoreAsciiCase_iff.2 h)
      | false h => exact hfalse (.false h)
  | dateTime _ hi => exact .dateTime (Instant.spelledBy_of_read? hi)
  | guid _ hg => exact .guid (Guid.read?_eq_some_iff.1 hg)

/-- Every spelling is read, except that instants are read from some of their spellings only. -/
theorem standsFor_of_spelledBy (hkind : l.kind.Fits t) (ht : t ≠ .dateTime) (hv : v.HasType t)
    (h : v.SpelledBy l.text) : l.StandsFor t v := by
  obtain ⟨htype, hfinite⟩ := hv
  cases h with
  | string =>
    obtain rfl := Option.some.inj htype
    exact .string hkind
  | number _ hd hx =>
    obtain rfl := Option.some.inj htype
    exact .number hkind ((Number.read?_eq_some_iff hfinite).2 ⟨_, hd, hx⟩) hfinite
  | true htrue =>
    obtain rfl := Option.some.inj htype
    have heq : Text.eqIgnoreAsciiCase l.text "true" = true := Text.eqIgnoreAsciiCase_iff.2 htrue
    rw [← heq]
    exact .boolean hkind
  | false hfalse =>
    obtain rfl := Option.some.inj htype
    have hne : Text.eqIgnoreAsciiCase l.text "true" = false := by
      refine Bool.eq_false_iff.2 fun htrue => ?_
      exact absurd ((Text.eqIgnoreAsciiCase_iff.1 htrue).symm.trans hfalse) (by decide)
    rw [← hne]
    exact .boolean hkind
  | dateTime => exact absurd (Option.some.inj htype).symm ht
  | guid hg =>
    obtain rfl := Option.some.inj htype
    exact .guid hkind (Guid.read?_eq_some_iff.2 hg)

theorem MisreadAt.resolve (h : l.MisreadAt t) : l.resolve t = some (.boolean false) := by
  have hfalse : Text.eqIgnoreAsciiCase l.text "true" = false :=
    Bool.eq_false_iff.2 fun htrue => h.text true (.true (Text.eqIgnoreAsciiCase_iff.1 htrue))
  obtain ⟨rfl, hkind, -⟩ := h
  exact hfalse ▸ (StandsFor.boolean hkind).resolve

theorem MisreadAt.not_spelledBy (h : l.MisreadAt t) (hv : v.HasType t) : ¬ v.SpelledBy l.text := by
  obtain ⟨htype, -, htext⟩ := h
  obtain ⟨hv, -⟩ := hv
  rw [htype] at hv
  cases v with
  | boolean b => exact htext b
  | null | string _ | number _ | dateTime _ | guid _ => cases hv

/-- A literal has no value at a type but a value of the type: the one that its text is a spelling
of, and none if there is no such value. It does have that value if its kind fits the type, unless
the value is an instant. Only a literal that is boolean by its kind and not by its text is read as
what it does not say. -/
theorem resolve_spelledBy (l : Literal) (t : FieldType) :
    (∀ v, l.resolve t = some v → l.kind.Fits t ∧ v.HasType t) ∧
    (¬ l.MisreadAt t →
      (∀ v, l.resolve t = some v → v.SpelledBy l.text ∧
        ∀ w : Value, w.HasType t → w.SpelledBy l.text → w = v) ∧
      ((∀ v : Value, v.HasType t → ¬ v.SpelledBy l.text) → l.resolve t = none) ∧
      (l.kind.Fits t → t ≠ .dateTime → ∀ v : Value, v.HasType t → v.SpelledBy l.text →
        l.resolve t = some v)) ∧
    (l.MisreadAt t → l.resolve t = some (.boolean false) ∧
      ∀ v : Value, v.HasType t → ¬ v.SpelledBy l.text) := by
  refine ⟨fun v hv => ⟨(standsFor_of_resolve hv).fits, hasType_of_resolve hv⟩, fun hread => ?_,
    fun hmis => ⟨hmis.resolve, fun v hv => hmis.not_spelledBy hv⟩⟩
  have hspelled : ∀ v, l.resolve t = some v → v.SpelledBy l.text := fun v hv =>
    (standsFor_of_resolve hv).spelledBy hread
  refine ⟨fun v hv => ⟨hspelled v hv, fun w hw hspell => ?_⟩, fun hnone => ?_,
    fun hkind ht v hv hspell => (standsFor_of_spelledBy hkind ht hv hspell).resolve⟩
  · exact hspell.unique hw (hasType_of_resolve hv) (hspelled v hv)
  · refine Option.eq_none_iff_forall_ne_some.2 fun v hv => ?_
    exact hnone v (hasType_of_resolve hv) (hspelled v hv)

theorem resolve_spelledBy_true :
    (⟨"TRUE", .boolean⟩ : Literal).resolve .boolean = some (.boolean true) ∧
      (Value.boolean true).SpelledBy "TRUE" := by
  have hvalue : (⟨"TRUE", .boolean⟩ : Literal).resolve .boolean = some (.boolean true) := by decide
  have hread : ¬ (⟨"TRUE", .boolean⟩ : Literal).MisreadAt .boolean := fun h =>
    h.text true (.true (by decide))
  obtain ⟨-, hspelled, -⟩ := resolve_spelledBy ⟨"TRUE", .boolean⟩ .boolean
  exact ⟨hvalue, ((hspelled hread).1 _ hvalue).1⟩

/-- Neither truth value is spelled so. -/
theorem resolve_yes :
    (⟨"yes", .boolean⟩ : Literal).resolve .boolean = some (.boolean false) ∧
      ∀ b, ¬ (Value.boolean b).SpelledBy "yes" := by
  refine ⟨by decide, fun b h => ?_⟩
  cases h with
  | true h | false h => exact absurd h (by decide)

end Literal

end EntityQuery
