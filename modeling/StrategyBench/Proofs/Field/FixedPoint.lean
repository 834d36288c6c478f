/-
StrategyBench.Proofs.Field.FixedPoint — a field as a declaration of itself.

The JSON of a field names each of its members by the name that counts first, so declaring it again
reads every one of them back, and nothing falls back on the category or the kind that it is declared
with (`normalize_toJson`). As whatever is declared becomes a canonical field, normalizing twice is
normalizing once (`normalize_again`).
-/

import StrategyBench.Proofs.Field.Canonical

namespace StrategyBench

/-! ## Trimming -/

namespace Text

theorem dropWhile_isBlank_of_head {cs : List Char} (h : cs.head?.all (fun c => !isBlank c) = true) :
    cs.dropWhile isBlank = cs := by
  cases cs with
  | nil => rfl
  | cons c cs =>
    rw [List.dropWhile_cons_of_neg]
    simpa using h

theorem trim_of_trimmed {s : String} (h : Trimmed s) : trim s = s := by
  have hlast : s.toList.reverse.dropWhile isBlank = s.toList.reverse :=
    dropWhile_isBlank_of_head (by rw [List.head?_reverse]; exact h.2)
  rw [trim, trimList, dropWhile_isBlank_of_head h.1, hlast, List.reverse_reverse, String.ofList_toList]

end Text

/-! ## The members of a field -/

theorem lookup_member_append (name : String) (v : Json) (rest : List (String × Json)) (q : String) :
    (member name v ++ rest).lookup q = if q = name then some v else rest.lookup q := by
  rw [member, List.singleton_append, List.lookup_cons]
  by_cases h : q = name
  · rw [if_pos h, beq_iff_eq.mpr h]
  · rw [if_neg h, beq_eq_false_iff_ne.mpr h]

theorem lookup_optionalMember_append (name : String) (v? : Option Json) (rest : List (String × Json)) (q : String) :
    (optionalMember name v? ++ rest).lookup q = if q = name then v?.or (rest.lookup q) else rest.lookup q := by
  cases v? with
  | none => simp [optionalMember]
  | some v => exact lookup_member_append name v rest q

/-- The member of a field under a name. -/
theorem Field.get?_toJson (f : Field) (q : String) :
    f.toJson.get? q =
      if q = "key" then some (.str f.key)
      else if q = "label" then some (.str f.label)
      else if q = "description" then f.description.map .str
      else if q = "type" then some (.str f.kind)
      else if q = "component" then some (.str f.component)
      else if q = "defaultValue" then f.defaultValue
      else if q = "required" then some (.bool f.required)
      else if q = "enumOptions" then f.choices.map fun cs => .arr (cs.map Choice.toJson)
      else if q = "validator" then f.validator
      else if q = "uiProps" then f.uiProps
      else none := by
  have hlast : (optionalMember "uiProps" f.uiProps).lookup q = if q = "uiProps" then f.uiProps else none := by
    have h := lookup_optionalMember_append "uiProps" f.uiProps [] q
    simpa using h
  simp only [Field.toJson, Json.get?, List.append_assoc, lookup_member_append, lookup_optionalMember_append, hlast]
  -- a member that is left out has no other member of its name after it
  by_cases hdescription : q = "description"
  · subst hdescription
    simp only [String.reduceEq, reduceIte, Option.or_none]
  by_cases hdefault : q = "defaultValue"
  · subst hdefault
    simp only [String.reduceEq, reduceIte, Option.or_none]
  by_cases hchoices : q = "enumOptions"
  · subst hchoices
    simp only [String.reduceEq, reduceIte, Option.or_none]
  by_cases hvalidator : q = "validator"
  · subst hvalidator
    simp only [String.reduceEq, reduceIte, Option.or_none]
  simp only [hdescription, hdefault, hchoices, hvalidator, if_false]

namespace Declaration

open Text (Tidy trim_of_trimmed)

/-! ## What counts of a declaration -/

theorem firstPresent_cons (raw : Json) (name : String) (names : List String) :
    firstPresent raw (name :: names) = (Json.present? (raw.get? name)).or (firstPresent raw names) := by
  rw [firstPresent]
  cases raw.get? name with
  | none => rfl
  | some v => cases v <;> rfl

theorem present_of_ne_null {j? : Option Json} (h : j? ≠ some .null) : Json.present? j? = j? := by
  unfold Json.present?
  split
  · exact absurd rfl h
  · rfl

theorem firstPresent_congr {raw raw' : Json} (h : ∀ name, raw.get? name = raw'.get? name) (names : List String) :
    firstPresent raw names = firstPresent raw' names := by
  induction names with
  | nil => rfl
  | cons name names ih => rw [firstPresent_cons, firstPresent_cons, h, ih]

/-- Only the members count, not the order in which they stand. -/
theorem normalize_congr {raw raw' : Json} (h : ∀ name, raw.get? name = raw'.get? name) (c : Category)
    (defaultKind : String) : normalize? raw c defaultKind = normalize? raw' c defaultKind := by
  have hkey : key raw = key raw' := by rw [key, key, firstPresent_congr h]
  have hlabel : label raw = label raw' := by rw [label, label, h, hkey]
  have hkind : kind raw defaultKind = kind raw' defaultKind := by rw [kind, kind, h]
  have hcomponent : component raw defaultKind = component raw' defaultKind := by
    rw [component, component, h, hkind]
  simp only [normalize?, hkey, hlabel, hkind, hcomponent, firstPresent_congr h, h]

theorem nonEmpty_of_tidy {s : String} (h : Tidy s) : nonEmpty (Text.trim s) = some s := by
  rw [trim_of_trimmed h.2, nonEmpty, if_neg]
  simpa using h.1

theorem trimmedText_of_tidy {s : String} (h : Tidy s) : trimmedText (some (.str s)) = some s := by
  rw [← nonEmpty_of_tidy h, trimmedText, Option.bind_eq_bind, Option.bind_some, Option.bind_eq_bind, Json.str?,
    Option.bind_some, trim_of_trimmed h.2]

/-! ## The members of a field, declared -/

variable {f : Field}

theorem key_toJson (h : f.Canonical) : key f.toJson = f.key := by
  rw [key, firstPresent_cons, Field.get?_toJson]
  exact trim_of_trimmed h.key.2

theorem label_toJson (h : f.Canonical) : label f.toJson = f.label := by
  simp only [label, Field.get?_toJson, String.reduceEq, reduceIte, Option.bind_some, displayText,
    nonEmpty_of_tidy h.label, Option.getD_some]

theorem kind_toJson (h : f.Canonical) (defaultKind : String) : kind f.toJson defaultKind = f.kind := by
  have hget : trimmedText (f.toJson.get? "type") = some f.kind := by
    simp only [Field.get?_toJson, String.reduceEq, reduceIte, trimmedText_of_tidy h.kind]
  rw [kind, hget, Option.getD_some]

theorem component_toJson (h : f.Canonical) (defaultKind : String) :
    component f.toJson defaultKind = f.component := by
  have hget : trimmedText (f.toJson.get? "component") = some f.component := by
    simp only [Field.get?_toJson, String.reduceEq, reduceIte, trimmedText_of_tidy h.component]
  rw [component, hget, Option.getD_some]

theorem description_toJson (f : Field) :
    (firstPresent f.toJson ["desc", "description"]).bind Json.str? = f.description := by
  rw [firstPresent_cons, firstPresent_cons, Field.get?_toJson, Field.get?_toJson]
  cases f.description <;> rfl

theorem required_toJson (f : Field) (d : Bool) : ((f.toJson.get? "required").bind Json.bool?).getD d = f.required := by
  rw [Field.get?_toJson]
  rfl

theorem choice_toJson {c : Choice} (h : c.value ≠ .null) : choice? c.toJson = some c := by
  have hvalue : firstPresent c.toJson ["value", "key"] = some c.value := by
    have hget : c.toJson.get? "value" = some c.value := rfl
    rw [firstPresent_cons, hget, present_of_ne_null (by simpa using h), Option.some_or]
  rw [Choice.toJson] at hvalue ⊢
  rw [choice?, hvalue]
  rfl

theorem choices_toJson {cs : List Choice} (h : ∀ c ∈ cs, c.value ≠ .null) : choices (cs.map Choice.toJson) = cs := by
  rw [choices, List.filterMap_map]
  induction cs with
  | nil => rfl
  | cons c cs ih =>
    rw [List.filterMap_cons, Function.comp_apply, choice_toJson (h c List.mem_cons_self)]
    exact congrArg (c :: ·) (ih fun d hd => h d (List.mem_cons_of_mem _ hd))

theorem options_toJson (h : f.Canonical) :
    (do nonEmptyList (choices (← (← firstPresent f.toJson ["enumOptions", "options", "choices"]).arr?))) = f.choices := by
  rw [firstPresent_cons, firstPresent_cons, firstPresent_cons, Field.get?_toJson, Field.get?_toJson, Field.get?_toJson]
  cases hchoices : f.choices with
  | none => rfl
  | some cs =>
    obtain ⟨hne, hvalues⟩ := h.choices cs hchoices
    show nonEmptyList (choices (cs.map Choice.toJson)) = some cs
    rw [choices_toJson hvalues]
    cases cs with
    | nil => exact absurd rfl hne
    | cons c cs => rfl

/-- A member that is not null counts, as there is no member by another name. -/
theorem payload_toJson (f : Field) {name : String} {others : List String} (hname : f.toJson.get? name ≠ some .null)
    (hothers : ∀ n ∈ others, f.toJson.get? n = none) :
    firstPresent f.toJson (name :: others) = f.toJson.get? name := by
  have hrest : firstPresent f.toJson others = none := by
    induction others with
    | nil => rfl
    | cons n others ih =>
      rw [firstPresent_cons, hothers n List.mem_cons_self]
      exact ih fun m hm => hothers m (List.mem_cons_of_mem _ hm)
  rw [firstPresent_cons, hrest, Option.or_none, present_of_ne_null hname]

/-! ## Fields, declared -/

/-- A canonical field is what its own JSON declares, in either category and for any kind. -/
theorem normalize_toJson (h : f.Canonical) (c : Category) (defaultKind : String) :
    normalize? f.toJson c defaultKind = some f := by
  have hdefault : firstPresent f.toJson ["defaultValue", "default"] = f.defaultValue := by
    rw [payload_toJson f (by rw [Field.get?_toJson]; exact h.defaultValue) (by simp [Field.get?_toJson]),
      Field.get?_toJson]
    rfl
  have hvalidator : firstPresent f.toJson ["validator"] = f.validator := by
    rw [payload_toJson f (by rw [Field.get?_toJson]; exact h.validator) (by simp), Field.get?_toJson]
    rfl
  have huiProps : firstPresent f.toJson ["uiProps"] = f.uiProps := by
    rw [payload_toJson f (by rw [Field.get?_toJson]; exact h.uiProps) (by simp), Field.get?_toJson]
    rfl
  have hkey : ¬f.key.isEmpty = true := by simpa using h.key.1
  rw [normalize?, key_toJson h, if_neg hkey, label_toJson h, description_toJson, kind_toJson h, component_toJson h,
    hdefault, required_toJson, options_toJson h, hvalidator, huiProps]

/-- What a declaration is brought to stays as it is when it is declared again, in either category and
whatever kind it would be of without naming one. -/
theorem normalize_again {raw : Json} {c : Category} {defaultKind : String} {d : Field} (hkind : Tidy defaultKind)
    (h : normalize? raw c defaultKind = some d) (c' : Category) (otherKind : String) :
    normalize? d.toJson c' otherKind = some d :=
  normalize_toJson (canonical_of_normalize hkind h) c' otherKind

/-- A key with blanks around it, a label that is a number, and options that are no objects or have no label. -/
def looseDeclaration : Json :=
  .obj [("id", .str " k "), ("label", .int 7), ("options", .arr [.str "a", .obj [("key", .int 3)], .null])]

theorem loose_declaration_again :
    ∃ d, normalize? looseDeclaration .parameter "enum" = some d ∧ d.required = true ∧ d.component = "select" ∧
      normalize? d.toJson .factor "" = some d := by
  obtain ⟨d, hd⟩ : ∃ d, normalize? looseDeclaration .parameter "enum" = some d := Option.isSome_iff_exists.mp (by decide)
  have hfields : (normalize? looseDeclaration .parameter "enum").map (fun d => (d.required, d.component)) =
      some (true, "select") := by decide
  rw [hd] at hfields
  obtain ⟨hrequired, hcomponent⟩ := Prod.mk.inj (Option.some.inj hfields)
  exact ⟨d, hd, hrequired, hcomponent, normalize_again (by decide : Tidy "enum") hd .factor ""⟩

end Declaration
end StrategyBench
