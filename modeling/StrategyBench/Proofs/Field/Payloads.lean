/-
StrategyBench.Proofs.Field.Payloads — where the payloads of a field come from.

Whatever is declared, the payloads of the field that comes of it are values inside the declaration, or
the labels of its options. So what values hand on to those inside them holds of the payloads
(`payloads_of_normalize`), and of the members of the field as JSON (`exists_members`).
-/

import StrategyBench.Proofs.Field.FixedPoint
import StrategyBench.Proofs.Json.Ordered

namespace StrategyBench

/-- A property that texts have, and that values hand on to their elements and members. -/
structure Json.HandedOn (P : Json → Prop) : Prop where
  str : ∀ s, P (.str s)
  arr : ∀ js, P (.arr js) → ∀ j ∈ js, P j
  obj : ∀ ms, P (.obj ms) → ∀ m ∈ ms, P m.2

theorem Json.HandedOn.get? {P : Json → Prop} (hP : HandedOn P) {j v : Json} {name : String} (hj : P j)
    (hv : j.get? name = some v) : P v := by
  cases j with
  | obj ms => exact hP.obj ms hj _ (mem_of_lookup hv)
  | _ => cases hv

/-- All payloads of a field have a property. -/
structure Field.Payloads (P : Json → Prop) (f : Field) : Prop where
  defaultValue : ∀ v ∈ f.defaultValue, P v
  choices : ∀ cs ∈ f.choices, ∀ c ∈ cs, P c.value
  validator : ∀ v ∈ f.validator, P v
  uiProps : ∀ v ∈ f.uiProps, P v

namespace Declaration

variable {P : Json → Prop}

theorem exists_member_of_firstPresent {raw v : Json} {names : List String} (h : firstPresent raw names = some v) :
    ∃ name, raw.get? name = some v := by
  fun_induction firstPresent raw names with
  | case1 => cases h
  | case2 name names hnull ih => exact ih h
  | case3 name names hnone ih => exact ih h
  | case4 name names w hne hw => exact ⟨name, hw.trans h⟩

theorem choice?_value (hP : Json.HandedOn P) {entry : Json} {c : Choice} (hentry : P entry)
    (h : choice? entry = some c) : P c.value := by
  unfold choice? at h
  split at h
  · cases h
  · rename_i members
    obtain ⟨label, -, h⟩ := Option.bind_eq_some_iff.mp h
    obtain rfl := Option.some.inj h
    cases hvalue : firstPresent (.obj members) ["value", "key"] with
    | none => exact hP.str label
    | some v =>
      obtain ⟨name, hname⟩ := exists_member_of_firstPresent hvalue
      exact hP.get? hentry hname
  · obtain ⟨label, -, rfl⟩ := Option.map_eq_some_iff.mp h
    exact hentry

/-- The choices of a field come from an array that was declared. -/
theorem exists_options_of_normalize {raw : Json} {category : Category} {defaultKind : String} {f : Field}
    {cs : List Choice} (h : normalize? raw category defaultKind = some f) (hcs : f.choices = some cs) :
    ∃ name entries, raw.get? name = some (.arr entries) ∧ cs = choices entries := by
  unfold normalize? at h
  split at h
  · cases h
  · obtain rfl := Option.some.inj h
    obtain ⟨options, hoptions, hcs⟩ := Option.bind_eq_some_iff.mp hcs
    obtain ⟨entries, hentries, hcs⟩ := Option.bind_eq_some_iff.mp hcs
    obtain ⟨name, hname⟩ := exists_member_of_firstPresent hoptions
    cases options with
    | arr js =>
      obtain rfl := Option.some.inj hentries
      exact ⟨name, js, hname, (eq_of_nonEmptyList hcs).1.symm⟩
    | _ => cases hentries

/-- What the members of a declaration hand on holds of the payloads of the field. -/
theorem payloads_of_normalize (hP : Json.HandedOn P) {raw : Json} {category : Category} {defaultKind : String}
    {f : Field} (hraw : ∀ name v, raw.get? name = some v → P v)
    (h : normalize? raw category defaultKind = some f) : f.Payloads P := by
  have hchoices : ∀ cs ∈ f.choices, ∀ c ∈ cs, P c.value := by
    intro cs hcs c hc
    obtain ⟨name, entries, hentries, rfl⟩ := exists_options_of_normalize h hcs
    obtain ⟨entry, hentry, hchoice⟩ := List.mem_filterMap.mp hc
    exact choice?_value hP (hP.arr entries (hraw name _ hentries) entry hentry) hchoice
  have hpresent {names : List String} : ∀ v ∈ firstPresent raw names, P v := by
    intro v hv
    obtain ⟨name, hname⟩ := exists_member_of_firstPresent hv
    exact hraw name v hname
  unfold normalize? at h
  split at h
  · cases h
  · obtain rfl := Option.some.inj h
    exact ⟨hpresent, hchoices, hpresent, hpresent⟩

end Declaration

/-! ## The members of a field -/

theorem optionalMember_names (name : String) (v? : Option Json) :
    ((optionalMember name v?).map Prod.fst).Sublist [name] := by
  cases v? with
  | none => exact List.nil_sublist _
  | some v => exact List.Sublist.refl _

theorem forall_mem_optionalMember {P : Json → Prop} {name : String} {v? : Option Json} (h : ∀ v ∈ v?, P v) :
    ∀ m ∈ optionalMember name v?, P m.2 := by
  cases v? with
  | none => simp [optionalMember]
  | some v => simpa [optionalMember] using h

/-- The members of a field stand under some of its names, and are texts, a truth value, choices and payloads. -/
theorem Field.exists_members {P : Json → Prop} (f : Field) (hstr : ∀ s, P (.str s)) (hbool : ∀ b, P (.bool b))
    (hchoices : ∀ cs ∈ f.choices, P (.arr (cs.map Choice.toJson))) (hpayloads : f.Payloads P) :
    ∃ ms, f.toJson = .obj ms ∧ (ms.map Prod.fst).Sublist memberNames ∧ ∀ m ∈ ms, P m.2 := by
  refine ⟨_, rfl, ?_, ?_⟩
  · have hmember (name : String) (v : Json) : ((member name v).map Prod.fst).Sublist [name] := .refl _
    have hnames := ((((((((hmember "key" (.str f.key)).append (hmember "label" (.str f.label))).append
      (optionalMember_names "description" (f.description.map .str))).append (hmember "type" (.str f.kind))).append
      (hmember "component" (.str f.component))).append (optionalMember_names "defaultValue" f.defaultValue)).append
      (hmember "required" (.bool f.required))).append
      (optionalMember_names "enumOptions" (f.choices.map fun cs => .arr (cs.map Choice.toJson)))).append
      (optionalMember_names "validator" f.validator) |>.append (optionalMember_names "uiProps" f.uiProps)
    simp only [List.map_append]
    exact hnames
  · have hmember {name : String} {v : Json} (hv : P v) : ∀ m ∈ member name v, P m.2 := by simpa [member] using hv
    have hdescription : ∀ v ∈ f.description.map Json.str, P v := by
      intro v hv
      obtain ⟨s, -, rfl⟩ := Option.map_eq_some_iff.mp hv
      exact hstr s
    have hoptions : ∀ v ∈ f.choices.map fun cs => Json.arr (cs.map Choice.toJson), P v := by
      intro v hv
      obtain ⟨cs, hcs, rfl⟩ := Option.map_eq_some_iff.mp hv
      exact hchoices cs hcs
    simp only [List.forall_mem_append]
    exact ⟨⟨⟨⟨⟨⟨⟨⟨⟨hmember (hstr _), hmember (hstr _)⟩, forall_mem_optionalMember hdescription⟩, hmember (hstr _)⟩,
      hmember (hstr _)⟩, forall_mem_optionalMember hpayloads.defaultValue⟩, hmember (hbool _)⟩,
      forall_mem_optionalMember hoptions⟩, forall_mem_optionalMember hpayloads.validator⟩,
      forall_mem_optionalMember hpayloads.uiProps⟩

end StrategyBench
