/-
StrategyBench.Proofs.Field.Described — what comes of a loose declaration, whatever JSON value it is.

Members that have aliases are chosen by which is there first and not null, and only then by what they
are (`Chosen`). So a declaration is refused exactly when what is chosen for its key is of no use, be
there a usable one under the other name (`normalize?_eq_none_iff`). Any other declaration comes to a
field with its names filled in, and with one option for every entry that has something to show, in the
order of the entries (`forall₂_offers_choices`).
-/

import Mathlib.Data.List.TakeWhile
import StrategyBench.Proofs.Field.FixedPoint
import StrategyBench.Proofs.Json.Nulls
import StrategyBench.Sandbox.Execute

namespace StrategyBench

/-! ## Blank texts -/

namespace Text

/-- Trimming leaves nothing exactly of a blank text. -/
theorem trim_eq_empty_iff (s : String) : trim s = "" ↔ blank s = true := by
  rw [trim, String.ofList_eq_empty_iff, trimList, List.reverse_eq_nil_iff, List.dropWhile_eq_nil_iff, blank, List.all_eq_true]
  constructor
  · intro hdropped
    -- what is left after the first blanks is blank too, so it starts with none and is nothing
    have hrest : s.toList.dropWhile isBlank = [] := by
      by_contra hne
      have hhead := List.head_dropWhile_not isBlank hne
      have hblank := hdropped _ (List.mem_reverse.mpr (List.head_mem hne))
      rw [hhead] at hblank
      cases hblank
    exact List.dropWhile_eq_nil_iff.mp hrest
  · intro hblank c hc
    exact hblank c ((List.dropWhile_suffix isBlank).subset (List.mem_reverse.mp hc))

end Text

namespace Declaration

open Text (Tidy tidy_trim trim_eq_empty_iff)

/-! ## What is chosen -/

/-- What counts of the members of some names: the first that is there and not null. -/
inductive Chosen (raw : Json) : List String → Json → Prop
  | here {name : String} {names : List String} (hpresent : raw.getD name ≠ .null) :
    Chosen raw (name :: names) (raw.getD name)
  | later {name : String} {names : List String} {v : Json} (habsent : raw.getD name = .null)
    (hrest : Chosen raw names v) : Chosen raw (name :: names) v

theorem present_eq_none_iff (raw : Json) (name : String) :
    Json.present? (raw.get? name) = none ↔ raw.getD name = .null := by
  rw [Json.getD]
  rcases raw.get? name with _ | (_ | _ | _ | _ | _ | _ | _) <;> simp [Json.present?]

theorem present_eq_some {raw : Json} {name : String} (h : raw.getD name ≠ .null) :
    Json.present? (raw.get? name) = some (raw.getD name) := by
  rw [Json.getD] at h ⊢
  cases hget : raw.get? name with
  | none => simp [hget] at h
  | some v =>
    rw [hget] at h
    exact present_of_ne_null (by simpa using h)

theorem firstPresent_eq_some_iff {raw : Json} {names : List String} {v : Json} :
    firstPresent raw names = some v ↔ Chosen raw names v := by
  induction names with
  | nil => exact ⟨nofun, nofun⟩
  | cons name names ih =>
    rw [firstPresent_cons]
    by_cases habsent : raw.getD name = .null
    · rw [(present_eq_none_iff raw name).mpr habsent, Option.none_or, ih]
      refine ⟨.later habsent, fun h => ?_⟩
      cases h with
      | here hpresent => exact absurd habsent hpresent
      | later _ hrest => exact hrest
    · rw [present_eq_some habsent, Option.some_or, Option.some.injEq]
      constructor
      · rintro rfl
        exact .here habsent
      · intro h
        cases h with
        | here => rfl
        | later hnull => exact absurd hnull habsent

theorem firstPresent_eq_none_iff {raw : Json} {names : List String} :
    firstPresent raw names = none ↔ ∀ name ∈ names, raw.getD name = .null := by
  induction names with
  | nil => simp [firstPresent]
  | cons name names ih =>
    rw [firstPresent_cons, Option.or_eq_none_iff, present_eq_none_iff, ih, List.forall_mem_cons]

/-! ## Declarations without a key -/

/-- What is chosen for the key is missing, a list or an object, or has nothing but blanks to show. -/
inductive Keyless (raw : Json) : Prop
  | missing (habsent : ∀ name ∈ ["key", "id"], raw.getD name = .null)
  | list {js : List Json} (hkey : Chosen raw ["key", "id"] (.arr js))
  | object {ms : List (String × Json)} (hkey : Chosen raw ["key", "id"] (.obj ms))
  | blank {v : Json} {s : String} (hkey : Chosen raw ["key", "id"] v) (hshown : scalarText v = some s)
    (hblank : Text.blank s = true)

/-- Only null, lists and objects show no text as a key. -/
theorem scalarText_eq_none {v : Json} (h : scalarText v = none) :
    v = .null ∨ (∃ js, v = .arr js) ∨ ∃ ms, v = .obj ms := by
  cases v with
  | null => exact .inl rfl
  | arr js => exact .inr (.inl ⟨js, rfl⟩)
  | obj ms => exact .inr (.inr ⟨ms, rfl⟩)
  | _ => cases h

theorem Chosen.ne_null {raw v : Json} {names : List String} (h : Chosen raw names v) : v ≠ .null := by
  rintro rfl
  exact firstPresent_ne_null raw names (firstPresent_eq_some_iff.mpr h)

theorem Chosen.unique {raw v w : Json} {names : List String} (hv : Chosen raw names v) (hw : Chosen raw names w) :
    v = w :=
  Option.some.inj ((firstPresent_eq_some_iff.mpr hv).symm.trans (firstPresent_eq_some_iff.mpr hw))

theorem key_of_chosen {raw v : Json} {s : String} (hkey : Chosen raw ["key", "id"] v) (hshown : scalarText v = some s) :
    key raw = Text.trim s := by
  rw [key, firstPresent_eq_some_iff.mpr hkey, Option.bind_some, hshown, Option.getD_some]

theorem key_of_no_text {raw : Json} (h : (firstPresent raw ["key", "id"]).bind scalarText = none) : key raw = "" := by
  rw [key, h, Option.getD_none]
  decide

/-- A declaration that is not without a key has a text for one, with more than blanks in it. -/
theorem exists_key {raw : Json} (h : ¬Keyless raw) :
    ∃ v s, Chosen raw ["key", "id"] v ∧ scalarText v = some s ∧ Text.blank s = false := by
  cases hfirst : firstPresent raw ["key", "id"] with
  | none => exact absurd (.missing (firstPresent_eq_none_iff.mp hfirst)) h
  | some v =>
    have hkey := firstPresent_eq_some_iff.mp hfirst
    cases hshown : scalarText v with
    | none =>
      rcases scalarText_eq_none hshown with rfl | ⟨js, rfl⟩ | ⟨ms, rfl⟩
      · exact absurd rfl hkey.ne_null
      · exact absurd (.list hkey) h
      · exact absurd (.object hkey) h
    | some s =>
      refine ⟨v, s, hkey, hshown, ?_⟩
      by_contra hblank
      exact h (.blank hkey hshown (by simpa using hblank))

theorem key_eq_empty_iff (raw : Json) : key raw = "" ↔ Keyless raw := by
  constructor
  · intro hempty
    by_contra h
    obtain ⟨v, s, hkey, hshown, hblank⟩ := exists_key h
    rw [key_of_chosen hkey hshown, trim_eq_empty_iff, hblank] at hempty
    cases hempty
  · intro h
    cases h with
    | missing habsent => exact key_of_no_text (by rw [firstPresent_eq_none_iff.mpr habsent, Option.bind_none])
    | list hkey => exact key_of_no_text (by rw [firstPresent_eq_some_iff.mpr hkey]; rfl)
    | object hkey => exact key_of_no_text (by rw [firstPresent_eq_some_iff.mpr hkey]; rfl)
    | blank hkey hshown hblank => rwa [key_of_chosen hkey hshown, trim_eq_empty_iff]

/-- A declaration comes to no field exactly when it has no key. -/
theorem normalize?_eq_none_iff (raw : Json) (c : Category) (defaultKind : String) :
    normalize? raw c defaultKind = none ↔ Keyless raw := by
  rw [← key_eq_empty_iff, normalize?]
  split
  · rename_i hempty
    simpa using hempty
  · rename_i hkey
    simpa using hkey

/-! ## Options -/

/-- An entry of a list of options that has something to show. -/
def offered : Json → Bool
  | .null => false
  | .obj ms => ["label", "value", "key"].any fun name => !((Json.obj ms).getD name).isNull
  | _ => true

/-- The option that an entry stands for. -/
inductive Offers : Json → Choice → Prop
  | plain {v : Json} {label : String} (hplain : ∀ ms, v ≠ .obj ms) (hlabel : displayText v = some label) :
    Offers v ⟨label, v⟩
  | valued {ms : List (String × Json)} {shown v : Json} {label : String}
    (hshown : Chosen (.obj ms) ["label", "value", "key"] shown) (hlabel : displayText shown = some label)
    (hvalue : Chosen (.obj ms) ["value", "key"] v) : Offers (.obj ms) ⟨label, v⟩
  /-- Where there is nothing but a label, its text is the value. -/
  | labelled {ms : List (String × Json)} {shown : Json} {label : String}
    (hshown : Chosen (.obj ms) ["label", "value", "key"] shown) (hlabel : displayText shown = some label)
    (hvalue : ∀ name ∈ ["value", "key"], (Json.obj ms).getD name = .null) : Offers (.obj ms) ⟨label, .str label⟩

theorem displayText_eq_none_iff (v : Json) : displayText v = none ↔ v = .null := by
  cases v <;> simp [displayText]

theorem displayText_present (v? : Option Json) : (Json.present? v?).bind displayText = v?.bind displayText := by
  rcases v? with _ | (_ | _ | _ | _ | _ | _ | _) <;> rfl

/-- The label of an entry is what the first of its label, its value and its key shows. -/
theorem label_eq (entry : Json) :
    ((entry.get? "label").bind displayText).or ((firstPresent entry ["value", "key"]).bind displayText) =
      (firstPresent entry ["label", "value", "key"]).bind displayText := by
  rw [firstPresent_cons entry "label", ← displayText_present]
  cases hlabel : Json.present? (entry.get? "label") with
  | none => rfl
  | some v =>
    have hv : v ≠ .null := by
      rintro rfl
      have h := firstPresent_ne_null entry ["label"]
      rw [firstPresent_cons, hlabel] at h
      exact h rfl
    obtain ⟨s, hs⟩ := Option.ne_none_iff_exists'.mp (mt (displayText_eq_none_iff v).mp hv)
    rw [Option.some_or, Option.bind_some, hs, Option.some_or]

theorem offered_obj (ms : List (String × Json)) :
    offered (.obj ms) = (firstPresent (.obj ms) ["label", "value", "key"]).isSome := by
  rw [Bool.eq_iff_iff, Option.isSome_iff_ne_none, ne_eq, firstPresent_eq_none_iff, offered, List.any_eq_true]
  simp only [Bool.not_eq_true', Json.isNull_eq_false, not_forall, exists_prop, ne_eq]

/-- An entry that has something to show is one option. -/
theorem exists_choice {entry : Json} (h : offered entry = true) : ∃ c, choice? entry = some c ∧ Offers entry c := by
  have hplain (hobject : ∀ ms, entry ≠ .obj ms) (hnull : entry ≠ .null) :
      ∃ c, (displayText entry).map (⟨·, entry⟩ : String → Choice) = some c ∧ Offers entry c := by
    obtain ⟨s, hs⟩ := Option.ne_none_iff_exists'.mp (mt (displayText_eq_none_iff entry).mp hnull)
    exact ⟨⟨s, entry⟩, by rw [hs, Option.map_some], .plain hobject hs⟩
  cases entry with
  | null => cases h
  | obj ms =>
    rw [offered_obj] at h
    obtain ⟨shown, hfirst⟩ := Option.isSome_iff_exists.mp h
    have hshown := firstPresent_eq_some_iff.mp hfirst
    obtain ⟨s, hs⟩ := Option.ne_none_iff_exists'.mp (mt (displayText_eq_none_iff shown).mp hshown.ne_null)
    rw [choice?, label_eq, hfirst, Option.bind_some, hs]
    cases hvalue : firstPresent (.obj ms) ["value", "key"] with
    | none => exact ⟨_, rfl, .labelled hshown hs (firstPresent_eq_none_iff.mp hvalue)⟩
    | some v => exact ⟨_, rfl, .valued hshown hs (firstPresent_eq_some_iff.mp hvalue)⟩
  | _ => exact hplain (fun _ => Json.noConfusion) Json.noConfusion

/-- Any other entry is none. -/
theorem choice?_of_not_offered {entry : Json} (h : offered entry = false) : choice? entry = none := by
  cases entry with
  | null => rfl
  | obj ms =>
    rw [offered_obj, Option.isSome_eq_false_iff, Option.isNone_iff_eq_none] at h
    rw [choice?, label_eq, h]
    rfl
  | _ => cases h

/-- There is one option for each entry that has something to show, in the order of the entries. -/
theorem forall₂_offers_choices (entries : List Json) :
    List.Forall₂ Offers (entries.filter offered) (choices entries) := by
  induction entries with
  | nil => exact .nil
  | cons entry entries ih =>
    rw [choices, List.filterMap_cons]
    cases h : offered entry with
    | false => rwa [choice?_of_not_offered h, List.filter_cons_of_neg (by simp [h])]
    | true =>
      obtain ⟨c, hc, hoffers⟩ := exists_choice h
      rw [hc, List.filter_cons_of_pos h]
      exact .cons hoffers ih

/-! ## Described fields -/

/-- The entries of the list that is chosen for the options; there are none where no list is chosen. -/
inductive EntriesOf (raw : Json) : List Json → Prop
  | listed {entries : List Json} (hlist : Chosen raw ["enumOptions", "options", "choices"] (.arr entries)) : EntriesOf raw entries
  | unlisted (hnone : ∀ entries, ¬Chosen raw ["enumOptions", "options", "choices"] (.arr entries)) : EntriesOf raw []

/-- A declaration names its component if it has a text for it with more than blanks in it. -/
inductive NamesComponent (raw : Json) : String → Prop
  | named {s : String} (hmember : raw.get? "component" = some (.str s)) (hblank : Text.blank s = false) :
    NamesComponent raw (Text.trim s)

def standardComponents : List String := ["input", "number", "switch", "select"]

/-- What holds of the field that a declaration with a key comes to. -/
structure Describes (raw : Json) (f : Field) : Prop where
  key : ∃ v s, Chosen raw ["key", "id"] v ∧ scalarText v = some s ∧ f.key = Text.trim s
  tidyKey : Tidy f.key
  tidyLabel : Tidy f.label
  tidyKind : Tidy f.kind
  tidyComponent : Tidy f.component
  component : NamesComponent raw f.component ∨ f.component ∈ standardComponents
  someChoice : f.choices ≠ some []
  choices : ∃ entries, EntriesOf raw entries ∧ List.Forall₂ Offers (entries.filter offered) (f.choices.getD [])
  values : ∀ c ∈ f.choices.getD [], c.value ≠ .null

theorem mem_standardComponents {kind component : String} (h : componentFor? kind = some component) :
    component ∈ standardComponents := by
  unfold componentFor? at h
  split at h <;> cases h <;> decide

theorem eq_of_nonEmpty {s t : String} (h : nonEmpty s = some t) : s = t := by
  unfold nonEmpty at h
  split at h
  · cases h
  · exact Option.some.inj h

theorem named_of_trimmedText {raw : Json} {t : String} (h : trimmedText (raw.get? "component") = some t) :
    NamesComponent raw t := by
  obtain ⟨v, hv, htext⟩ := Option.bind_eq_some_iff.mp h
  obtain ⟨s, hs, hne⟩ := Option.bind_eq_some_iff.mp htext
  obtain rfl := eq_of_nonEmpty hne
  have hblank : Text.blank s ≠ true := mt (trim_eq_empty_iff s).mpr (tidy_of_trimmedText h).1
  cases v with
  | str s =>
    cases hs
    exact .named hv (by simpa using hblank)
  | _ => cases hs

/-- Without a name for it, the component is one of the standard ones. -/
theorem component_named_or_standard (raw : Json) (defaultKind : String) :
    NamesComponent raw (component raw defaultKind) ∨ component raw defaultKind ∈ standardComponents := by
  rw [component]
  cases hnamed : trimmedText (raw.get? "component") with
  | some t => exact .inl (named_of_trimmedText hnamed)
  | none =>
    refine .inr ?_
    rw [Option.getD_none]
    cases hown : componentFor? (kind raw defaultKind) with
    | some component => exact mem_standardComponents hown
    | none =>
      cases hdefault : componentFor? defaultKind with
      | some component => exact mem_standardComponents hdefault
      | none => decide

theorem getD_nonEmptyList {α : Type} (xs : List α) : (nonEmptyList xs).getD [] = xs := by
  cases xs <;> rfl

/-- The options of a declaration are those of the entries that are chosen. -/
theorem exists_entries (raw : Json) :
    ∃ entries, EntriesOf raw entries ∧
      (do nonEmptyList (choices (← (← firstPresent raw ["enumOptions", "options", "choices"]).arr?))).getD [] = choices entries := by
  cases hfirst : firstPresent raw ["enumOptions", "options", "choices"] with
  | none =>
    refine ⟨[], .unlisted fun entries hlist => ?_, rfl⟩
    rw [firstPresent_eq_some_iff.mpr hlist] at hfirst
    cases hfirst
  | some v =>
    have hchosen := firstPresent_eq_some_iff.mp hfirst
    cases v with
    | arr entries => exact ⟨entries, .listed hchosen, getD_nonEmptyList _⟩
    | _ => exact ⟨[], .unlisted fun entries hlist => (nomatch hchosen.unique hlist), rfl⟩

theorem describes_of_normalize {raw : Json} {c : Category} {defaultKind : String} {f : Field}
    (hkind : Tidy defaultKind) (h : normalize? raw c defaultKind = some f) : Describes raw f := by
  have hcanonical := canonical_of_normalize hkind h
  have hkeyed : ¬Keyless raw := by
    rw [← normalize?_eq_none_iff raw c defaultKind, h]
    nofun
  obtain ⟨v, s, hkey, hshown, -⟩ := exists_key hkeyed
  obtain ⟨entries, hentries, hchoices⟩ := exists_entries raw
  rw [normalize?] at h
  split at h
  · cases h
  · obtain rfl := Option.some.inj h
    refine ⟨⟨v, s, hkey, hshown, key_of_chosen hkey hshown⟩, hcanonical.key, hcanonical.label, hcanonical.kind,
      hcanonical.component, component_named_or_standard raw defaultKind, ?_, ⟨entries, hentries, ?_⟩, ?_⟩
    · exact fun hnone => (hcanonical.choices [] hnone).1 rfl
    · exact hchoices ▸ forall₂_offers_choices entries
    · exact hchoices ▸ fun c => value_ne_null_of_mem_choices

/-! ## Declarations, brought to fields -/

open Sandbox (rejectionOf)
open Sandbox.Capability (normalized)

/-- Whatever JSON value is declared, it is refused for want of a key exactly if what is chosen for its key is
missing, a list, an object or blank; anything else comes to a field, whose names are filled in and trimmed and
whose options are those of the entries that have something to show. -/
theorem normalized_refused_or_described (raw : Json) (c : Category) {defaultKind : String} (hkind : Tidy defaultKind) :
    ((∃ reason, normalized raw c defaultKind = .raise (.host reason) ∧
      rejectionOf (.host reason) = .runtime "definition missing key") ↔ Keyless raw) ∧
    (¬Keyless raw → ∃ f, normalized raw c defaultKind = .done f ∧ Describes raw f) := by
  have hrefused := normalize?_eq_none_iff raw c defaultKind
  rw [normalized]
  cases h : normalize? raw c defaultKind with
  | none =>
    have hkeyless : Keyless raw := hrefused.mp h
    exact ⟨iff_of_true ⟨_, rfl, rfl⟩ hkeyless, fun hkeyed => absurd hkeyless hkeyed⟩
  | some f =>
    have hkeyed : ¬Keyless raw := fun hkeyless => nomatch h.symm.trans (hrefused.mpr hkeyless)
    exact ⟨iff_of_false nofun hkeyed, fun _ => ⟨f, rfl, describes_of_normalize hkind h⟩⟩

/-- A number for a key under its other name, a component of blanks, and options with a list, an empty object, an
empty label and a value alone. -/
def oddDeclaration : Json :=
  .obj [("component", .str " "), ("enumOptions", .null), ("id", .int 7), ("key", .null),
    ("options", .arr [.arr [], .null, .obj [], .obj [("label", .str "")], .obj [("value", .bool false)]])]

/-- A list for a key, which is refused although there is a text under the other name. -/
def listForKey : Json := .obj [("id", .str "k"), ("key", .arr [])]

theorem odd_declaration_described :
    (∃ f, normalized oddDeclaration .factor "enum" = .done f ∧ Describes oddDeclaration f ∧
      f.choices.map (List.map Choice.label) = some ["[]", "", "false"]) ∧
    ∃ reason, normalized listForKey .factor "enum" = .raise (.host reason) ∧
      rejectionOf (.host reason) = .runtime "definition missing key" := by
  have htidy : Tidy "enum" := by decide
  constructor
  · have hkeyed : ¬Keyless oddDeclaration := by
      rw [← key_eq_empty_iff]
      decide
    obtain ⟨f, hf, hdescribes⟩ := (normalized_refused_or_described oddDeclaration .factor htidy).2 hkeyed
    refine ⟨f, hf, hdescribes, ?_⟩
    have hlabels : (normalize? oddDeclaration .factor "enum").map (fun f => f.choices.map (List.map Choice.label)) =
        some (some ["[]", "", "false"]) := by decide
    obtain ⟨g, hg, hchoices⟩ := Option.map_eq_some_iff.mp hlabels
    rw [normalized, hg] at hf
    obtain rfl := Lua.Program.done.inj hf
    exact hchoices
  · have hlist : Keyless listForKey := .list (.here (show Json.arr [] ≠ .null from nofun))
    exact (normalized_refused_or_described listForKey .factor htidy).1.mpr hlist

end Declaration
end StrategyBench
