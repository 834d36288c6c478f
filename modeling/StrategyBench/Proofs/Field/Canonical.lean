/-
StrategyBench.Proofs.Field.Canonical — what holds of every field that a declaration is brought to.

However loose a declaration is, the field that comes of it has its names filled in and trimmed, and
nothing in it is null (`canonical_of_normalize`). Keys of a list that has no repeated one are
distinct (`nodup_of_firstRepeat`).
-/

import Mathlib.Data.List.Basic
import StrategyBench.Field.Normalize

namespace StrategyBench

/-! ## Trimmed texts -/

namespace Text

/-- There is no blank at either end. -/
def Trimmed (s : String) : Prop :=
  s.toList.head?.all (fun c => !isBlank c) = true ∧ s.toList.getLast?.all (fun c => !isBlank c) = true

/-- A text with something in it, and no blank at either end. -/
def Tidy (s : String) : Prop := s ≠ "" ∧ Trimmed s

instance (s : String) : Decidable (Trimmed s) := inferInstanceAs (Decidable (_ ∧ _))

instance (s : String) : Decidable (Tidy s) := inferInstanceAs (Decidable (_ ∧ _))

theorem head?_dropWhile_all_not (p : Char → Bool) (cs : List Char) :
    (cs.dropWhile p).head?.all (fun c => !p c) = true := by
  have h := List.head?_dropWhile_not p cs
  cases hc : (cs.dropWhile p).head? with
  | none => rfl
  | some c =>
    rw [hc] at h
    simpa using h

theorem trimmed_trim (s : String) : Trimmed (trim s) := by
  simp only [Trimmed, trim, trimList, String.toList_ofList, List.head?_reverse, List.getLast?_reverse]
  refine ⟨?_, head?_dropWhile_all_not _ _⟩
  have hfirst := head?_dropWhile_all_not isBlank s.toList
  rw [← List.getLast?_reverse] at hfirst
  -- what is left of the end is the end of what was there, unless nothing is left
  generalize (s.toList.dropWhile isBlank).reverse = cs at hfirst ⊢
  cases hrest : cs.dropWhile isBlank with
  | nil => rfl
  | cons c rest =>
    obtain ⟨before, hbefore⟩ := List.dropWhile_suffix (l := cs) isBlank
    rw [hrest] at hbefore
    rw [← hbefore, List.getLast?_append_of_ne_nil _ (List.cons_ne_nil _ _)] at hfirst
    exact hfirst

theorem tidy_trim {s : String} (h : trim s ≠ "") : Tidy (trim s) := ⟨h, trimmed_trim s⟩

end Text

open Text (Tidy tidy_trim)

/-! ## Fields -/

/-- A field whose names are filled in and trimmed, and in which nothing is null. -/
structure Field.Canonical (f : Field) : Prop where
  key : Tidy f.key
  label : Tidy f.label
  kind : Tidy f.kind
  component : Tidy f.component
  choices : ∀ cs ∈ f.choices, cs ≠ [] ∧ ∀ c ∈ cs, c.value ≠ .null
  defaultValue : f.defaultValue ≠ some .null
  validator : f.validator ≠ some .null
  uiProps : f.uiProps ≠ some .null

theorem tidy_of_componentFor {kind component : String} (h : componentFor? kind = some component) :
    Tidy component := by
  unfold componentFor? at h
  split at h <;> cases h <;> decide

namespace Declaration

theorem tidy_of_nonEmpty_trim {s t : String} (h : nonEmpty (Text.trim s) = some t) : Tidy t := by
  unfold nonEmpty at h
  split at h
  · cases h
  · rename_i hne
    obtain rfl := Option.some.inj h
    exact tidy_trim (by simpa using hne)

theorem tidy_of_trimmedText {j : Option Json} {t : String} (h : trimmedText j = some t) : Tidy t := by
  obtain ⟨v, -, h⟩ := Option.bind_eq_some_iff.mp h
  obtain ⟨s, -, h⟩ := Option.bind_eq_some_iff.mp h
  exact tidy_of_nonEmpty_trim h

theorem firstPresent_ne_null (raw : Json) (names : List String) : firstPresent raw names ≠ some .null := by
  fun_induction firstPresent raw names with
  | case1 => simp
  | case2 name names hnull ih => exact ih
  | case3 name names hnone ih => exact ih
  | case4 name names v hne hv => exact fun h => hne (Option.some.inj h)

/-! ## Options -/

theorem choice?_value_ne_null {entry : Json} {c : Choice} (h : choice? entry = some c) : c.value ≠ .null := by
  unfold choice? at h
  split at h
  · cases h
  · rename_i members
    obtain ⟨label, -, h⟩ := Option.bind_eq_some_iff.mp h
    obtain rfl := Option.some.inj h
    cases hvalue : firstPresent (.obj members) ["value", "key"] with
    | none => simp
    | some v =>
      rintro rfl
      exact firstPresent_ne_null _ _ hvalue
  · rename_i hnull _
    obtain ⟨label, -, rfl⟩ := Option.map_eq_some_iff.mp h
    exact hnull

theorem value_ne_null_of_mem_choices {entries : List Json} {c : Choice} (h : c ∈ choices entries) :
    c.value ≠ .null := by
  obtain ⟨entry, -, hentry⟩ := List.mem_filterMap.mp h
  exact choice?_value_ne_null hentry

theorem eq_of_nonEmptyList {α : Type} {xs ys : List α} (h : nonEmptyList xs = some ys) :
    xs = ys ∧ ys ≠ [] := by
  unfold nonEmptyList at h
  split at h
  · cases h
  · obtain rfl := Option.some.inj h
    exact ⟨rfl, by assumption⟩

/-! ## Names -/

theorem tidy_key {raw : Json} (h : (key raw).isEmpty = false) : Tidy (key raw) :=
  tidy_trim (by simpa [key] using h)

theorem tidy_label {raw : Json} (h : (key raw).isEmpty = false) : Tidy (label raw) := by
  unfold label
  cases hlabel : ((raw.get? "label").bind displayText).bind fun s => nonEmpty (Text.trim s) with
  | none => exact tidy_key h
  | some t =>
    obtain ⟨s, -, hs⟩ := Option.bind_eq_some_iff.mp hlabel
    exact tidy_of_nonEmpty_trim hs

theorem tidy_kind (raw : Json) {defaultKind : String} (h : Tidy defaultKind) : Tidy (kind raw defaultKind) := by
  unfold kind
  cases hkind : trimmedText (raw.get? "type") with
  | none => exact h
  | some t => exact tidy_of_trimmedText hkind

theorem tidy_component (raw : Json) (defaultKind : String) : Tidy (component raw defaultKind) := by
  unfold component
  cases hnamed : trimmedText (raw.get? "component") with
  | some t => exact tidy_of_trimmedText hnamed
  | none =>
    cases hown : componentFor? (kind raw defaultKind) with
    | some c => exact tidy_of_componentFor hown
    | none =>
      cases hdefault : componentFor? defaultKind with
      | some c => exact tidy_of_componentFor hdefault
      | none => exact (by decide : Tidy fallbackComponent)

/-! ## Declarations -/

/-- Whatever is declared, the field that it describes is canonical. -/
theorem canonical_of_normalize {raw : Json} {category : Category} {defaultKind : String} {f : Field}
    (hkind : Tidy defaultKind) (h : normalize? raw category defaultKind = some f) : f.Canonical := by
  unfold normalize? at h
  split at h
  · cases h
  · rename_i hkey
    have hkey : (key raw).isEmpty = false := by simpa using hkey
    obtain rfl := Option.some.inj h
    exact {
      key := tidy_key hkey
      label := tidy_label hkey
      kind := tidy_kind raw hkind
      component := tidy_component raw defaultKind
      choices := by
        intro cs hcs
        obtain ⟨options, -, hcs⟩ := Option.bind_eq_some_iff.mp hcs
        obtain ⟨entries, -, hcs⟩ := Option.bind_eq_some_iff.mp hcs
        obtain ⟨rfl, hne⟩ := eq_of_nonEmptyList hcs
        exact ⟨hne, fun c => value_ne_null_of_mem_choices⟩
      defaultValue := firstPresent_ne_null _ _
      validator := firstPresent_ne_null _ _
      uiProps := firstPresent_ne_null _ _ }

end Declaration

/-! ## Distinct keys -/

theorem nodup_of_firstRepeat {seen keys : List String} (h : firstRepeat? seen keys = none) :
    keys.Nodup ∧ ∀ k ∈ keys, k ∉ seen := by
  fun_induction firstRepeat? seen keys with
  | case1 seen => simp
  | case2 seen k rest hseen => cases h
  | case3 seen k rest hseen ih =>
    obtain ⟨hrest, hnew⟩ := ih h
    refine ⟨List.nodup_cons.mpr ⟨fun hk => hnew k hk List.mem_cons_self, hrest⟩, ?_⟩
    intro l hl
    rcases List.mem_cons.mp hl with rfl | hl
    · simpa using hseen
    · exact fun hmem => hnew l hl (List.mem_cons_of_mem _ hmem)

/-- A schema without a repeated key has distinct keys in each of its lists. -/
theorem Schema.nodup_keys {s : Schema} (h : s.repeatedKey? = none) (c : Category) :
    ((s.fields c).map Field.key).Nodup := by
  unfold Schema.repeatedKey? at h
  split at h
  · cases h
  · rename_i hparameters
    cases c with
    | parameter => exact (nodup_of_firstRepeat hparameters).1
    | factor => exact (nodup_of_firstRepeat (Option.map_eq_none_iff.mp h)).1

end StrategyBench
