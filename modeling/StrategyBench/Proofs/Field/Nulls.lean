/-
StrategyBench.Proofs.Field.Nulls — fields without the nulls inside their payloads.

A payload itself is never null, so leaving out what is null inside payloads keeps every member of a
field, and a canonical field stays canonical (`Canonical.withoutNulls`). What has the members of a
field that are left then declares the field without nulls (`normalize_of_kept`).
-/

import StrategyBench.Proofs.Field.Payloads
import StrategyBench.Proofs.Json.Nulls

namespace StrategyBench

/-! ## Leaving out nulls -/

def Choice.withoutNulls (c : Choice) : Choice := { c with value := c.value.withoutNulls }

/-- A field whose payloads lack what was null inside them. -/
def Field.withoutNulls (f : Field) : Field :=
  { f with
    defaultValue := f.defaultValue.map Json.withoutNulls
    choices := f.choices.map (List.map Choice.withoutNulls)
    validator := f.validator.map Json.withoutNulls
    uiProps := f.uiProps.map Json.withoutNulls }

theorem Choice.toJson_withoutNulls {c : Choice} (h : c.value ≠ .null) :
    c.toJson.withoutNulls = c.withoutNulls.toJson := by
  have hvalue : c.value.isNull = false := Json.isNull_eq_false.mpr h
  have hlabel : (Json.str c.label).isNull = false := rfl
  simp only [Choice.toJson, Choice.withoutNulls, Json.withoutNulls, Json.membersWithoutNulls, hvalue, hlabel,
    Bool.false_eq_true, if_false]

theorem Json.elementsWithoutNulls_choices {cs : List Choice} (h : ∀ c ∈ cs, c.value ≠ .null) :
    elementsWithoutNulls (cs.map Choice.toJson) = (cs.map Choice.withoutNulls).map Choice.toJson := by
  induction cs with
  | nil => rfl
  | cons c cs ih =>
    have hc : c.toJson.isNull = false := rfl
    rw [List.map_cons, elementsWithoutNulls, hc, if_neg Bool.false_ne_true,
      Choice.toJson_withoutNulls (h c List.mem_cons_self), ih fun d hd => h d (List.mem_cons_of_mem _ hd)]
    rfl

namespace Field

variable {f : Field}

theorem map_withoutNulls_ne_null {v? : Option Json} (h : v? ≠ some .null) : v?.map Json.withoutNulls ≠ some .null := by
  cases v? with
  | none => simp
  | some v =>
    have hv : v.withoutNulls.isNull = false := by
      rw [Json.withoutNulls_isNull, Json.isNull_eq_false]
      exact fun hnull => h (congrArg some hnull)
    exact fun hsome => Json.isNull_eq_false.mp hv (Option.some.inj hsome)

theorem Canonical.withoutNulls (h : f.Canonical) : f.withoutNulls.Canonical where
  key := h.key
  label := h.label
  kind := h.kind
  component := h.component
  choices := by
    intro ds hds
    obtain ⟨cs, hcs, rfl⟩ := Option.map_eq_some_iff.mp hds
    obtain ⟨hne, hvalues⟩ := h.choices cs hcs
    refine ⟨by simpa using hne, fun d hd => ?_⟩
    obtain ⟨c, hc, rfl⟩ := List.mem_map.mp hd
    have hnull : (some c.value).map Json.withoutNulls ≠ some .null :=
      map_withoutNulls_ne_null fun hsome => hvalues c hc (Option.some.inj hsome)
    exact fun hd => hnull (congrArg some hd)
  defaultValue := map_withoutNulls_ne_null h.defaultValue
  validator := map_withoutNulls_ne_null h.validator
  uiProps := map_withoutNulls_ne_null h.uiProps

theorem withoutNulls_of_nullFree (h : f.Payloads Json.NullFree) : f.withoutNulls = f := by
  have hpayload {v? : Option Json} (hv : ∀ v ∈ v?, v.NullFree) : v?.map Json.withoutNulls = v? := by
    cases v? with
    | none => rfl
    | some v => exact congrArg some (Json.withoutNulls_of_nullFree (hv v rfl))
  have hchoices : f.choices.map (List.map Choice.withoutNulls) = f.choices := by
    cases hcs : f.choices with
    | none => rfl
    | some cs =>
      have hall : ∀ c ∈ cs, c.withoutNulls = id c := fun c hc =>
        congrArg (Choice.mk c.label) (Json.withoutNulls_of_nullFree (h.choices cs hcs c hc))
      rw [Option.map_some, List.map_congr_left hall, List.map_id]
  rw [withoutNulls, hpayload h.defaultValue, hpayload h.validator, hpayload h.uiProps, hchoices]

/-! ## The members that are left -/

theorem bind_kept_of_ne_null {v? : Option Json} (h : v? ≠ some .null) :
    v?.bind Json.kept? = v?.map Json.withoutNulls := by
  cases v? with
  | none => rfl
  | some v =>
    have hv : v.isNull = false := Json.isNull_eq_false.mpr fun hnull => h (congrArg some hnull)
    rw [Option.bind_some, Json.kept?, hv]
    rfl

/-- The members of a canonical field are all left, and are those of the field without nulls. -/
theorem bind_kept_get?_toJson (h : f.Canonical) (q : String) :
    (f.toJson.get? q).bind Json.kept? = f.withoutNulls.toJson.get? q := by
  have hchoices : (f.choices.map fun cs => Json.arr (cs.map Choice.toJson)).bind Json.kept? =
      f.withoutNulls.choices.map fun cs => Json.arr (cs.map Choice.toJson) := by
    cases hcs : f.choices with
    | none => simp [withoutNulls, hcs]
    | some cs =>
      simp only [withoutNulls, hcs, Option.map_some, Option.bind_some, Json.kept?, Json.isNull, Json.withoutNulls,
        Json.elementsWithoutNulls_choices (h.choices cs hcs).2, Bool.false_eq_true, if_false]
  have hdescription : (f.description.map Json.str).bind Json.kept? = f.description.map Json.str := by
    cases f.description <;> rfl
  rw [get?_toJson, get?_toJson]
  simp only [apply_ite (fun v? : Option Json => v?.bind Json.kept?), Option.bind_some, Option.bind_none,
    bind_kept_of_ne_null h.defaultValue, bind_kept_of_ne_null h.validator, bind_kept_of_ne_null h.uiProps,
    hchoices, hdescription]
  rfl

end Field

/-! ## Fields, declared by what is left -/

/-- What has the members that are left of a canonical field declares that field without nulls, in either
category and for any kind. -/
theorem Declaration.normalize_of_kept {f : Field} (h : f.Canonical) {raw : Json}
    (hraw : ∀ q, raw.get? q = (f.toJson.get? q).bind Json.kept?) (c : Category) (defaultKind : String) :
    normalize? raw c defaultKind = some f.withoutNulls := by
  rw [normalize_congr fun q => (hraw q).trans (Field.bind_kept_get?_toJson h q)]
  exact normalize_toJson h.withoutNulls c defaultKind

end StrategyBench
