/-
StrategyBench.Proofs.Field.Equality — when two fields are equal.

Fields are equal when their names are the same texts and their payloads the same data
(`Field.same_iff_alike`). That is decided place by place for payloads whose members are in order, as
those of every field that is read are (`Field.ordered_ofJson`).
-/

import StrategyBench.Field.Encoding
import StrategyBench.Proofs.Json.Equality

namespace StrategyBench

/-! ## Optional values and lists -/

section Containers

variable {α : Type} {same : α → α → Bool} {R : α → α → Prop}

theorem sameOption_comm (hcomm : ∀ a b, same a b = same b a) (a b : Option α) :
    sameOption same a b = sameOption same b a := by
  cases a <;> cases b <;> try rfl
  case some.some a b => exact hcomm a b

theorem sameList_comm (hcomm : ∀ a b, same a b = same b a) (as bs : List α) :
    sameList same as bs = sameList same bs as := by
  induction as generalizing bs with
  | nil => cases bs <;> rfl
  | cons a as ih =>
    cases bs with
    | nil => rfl
    | cons b bs => rw [sameList, sameList, hcomm a b, ih bs]

theorem sameOption_iff {a b : Option α} (h : ∀ x ∈ a, ∀ y ∈ b, same x y = true ↔ R x y) :
    sameOption same a b = true ↔ Option.Rel R a b := by
  cases a <;> cases b
  case none.none => exact ⟨fun _ => .none, fun _ => rfl⟩
  case some.some x y =>
    refine ⟨fun hsame => .some ((h x rfl y rfl).mp hsame), fun hrel => ?_⟩
    cases hrel with
    | some hrel => exact (h x rfl y rfl).mpr hrel
  all_goals exact ⟨fun h => Bool.noConfusion h, fun h => by cases h⟩

theorem sameList_iff {as bs : List α} (h : ∀ x ∈ as, ∀ y ∈ bs, same x y = true ↔ R x y) :
    sameList same as bs = true ↔ List.Forall₂ R as bs := by
  induction as generalizing bs with
  | nil =>
    cases bs with
    | nil => exact ⟨fun _ => .nil, fun _ => rfl⟩
    | cons b bs => exact ⟨fun h => Bool.noConfusion h, fun h => by cases h⟩
  | cons a as ih =>
    cases bs with
    | nil => exact ⟨fun h => Bool.noConfusion h, fun h => by cases h⟩
    | cons b bs =>
      rw [sameList, Bool.and_eq_true, List.forall₂_cons, h a List.mem_cons_self b List.mem_cons_self,
        ih fun x hx y hy => h x (List.mem_cons_of_mem _ hx) y (List.mem_cons_of_mem _ hy)]

end Containers

/-! ## Choices -/

structure Choice.Alike (a b : Choice) : Prop where
  label : a.label = b.label
  value : a.value.Alike b.value

theorem Choice.same_comm (a b : Choice) : a.same b = b.same a := by
  rw [Choice.same, Choice.same, BEq.comm, Json.same_comm]

theorem Choice.same_iff_alike {a b : Choice} (ha : a.value.Ordered) (hb : b.value.Ordered) :
    a.same b = true ↔ a.Alike b := by
  rw [Choice.same, Bool.and_eq_true, beq_iff_eq, Json.same_iff_alike _ _ ha hb]
  exact ⟨fun h => ⟨h.1, h.2⟩, fun h => ⟨h.label, h.value⟩⟩

/-! ## Fields -/

/-- Equality as data. -/
structure Field.Alike (f g : Field) : Prop where
  key : f.key = g.key
  label : f.label = g.label
  description : f.description = g.description
  kind : f.kind = g.kind
  component : f.component = g.component
  defaultValue : Option.Rel Json.Alike f.defaultValue g.defaultValue
  required : f.required = g.required
  choices : Option.Rel (List.Forall₂ Choice.Alike) f.choices g.choices
  validator : Option.Rel Json.Alike f.validator g.validator
  uiProps : Option.Rel Json.Alike f.uiProps g.uiProps

/-- The members of all objects in the payloads are in order. -/
structure Field.Ordered (f : Field) : Prop where
  defaultValue : ∀ j ∈ f.defaultValue, j.Ordered
  choices : ∀ cs ∈ f.choices, ∀ c ∈ cs, c.value.Ordered
  validator : ∀ j ∈ f.validator, j.Ordered
  uiProps : ∀ j ∈ f.uiProps, j.Ordered

namespace Field

theorem same_comm (f g : Field) : f.same g = g.same f := by
  have hpayload := sameOption_comm Json.same_comm
  have hchoices := sameOption_comm (sameList_comm Choice.same_comm)
  rw [same, same, hpayload f.defaultValue, hpayload f.validator, hpayload f.uiProps, hchoices f.choices,
    BEq.comm (a := f.key), BEq.comm (a := f.label), BEq.comm (a := f.description), BEq.comm (a := f.kind),
    BEq.comm (a := f.component), BEq.comm (a := f.required)]

theorem same_iff_alike {f g : Field} (hf : f.Ordered) (hg : g.Ordered) : f.same g = true ↔ f.Alike g := by
  have hdefault := sameOption_iff fun x hx y hy =>
    Json.same_iff_alike x y (hf.defaultValue x hx) (hg.defaultValue y hy)
  have hvalidator := sameOption_iff fun x hx y hy =>
    Json.same_iff_alike x y (hf.validator x hx) (hg.validator y hy)
  have huiProps := sameOption_iff fun x hx y hy =>
    Json.same_iff_alike x y (hf.uiProps x hx) (hg.uiProps y hy)
  have hchoices := sameOption_iff fun xs hxs ys hys => sameList_iff fun x hx y hy =>
    Choice.same_iff_alike (hf.choices xs hxs x hx) (hg.choices ys hys y hy)
  simp only [same, Bool.and_eq_true, beq_iff_eq, hdefault, hvalidator, huiProps, hchoices]
  constructor
  · rintro ⟨⟨⟨⟨⟨⟨⟨⟨⟨hkey, hlabel⟩, hdescription⟩, hkind⟩, hcomponent⟩, hd⟩, hrequired⟩, hc⟩, hv⟩, hu⟩
    exact ⟨hkey, hlabel, hdescription, hkind, hcomponent, hd, hrequired, hc, hv, hu⟩
  · rintro ⟨hkey, hlabel, hdescription, hkind, hcomponent, hd, hrequired, hc, hv, hu⟩
    exact ⟨⟨⟨⟨⟨⟨⟨⟨⟨hkey, hlabel⟩, hdescription⟩, hkind⟩, hcomponent⟩, hd⟩, hrequired⟩, hc⟩, hv⟩, hu⟩

end Field

/-! ## Reading -/

theorem ordered_of_mem_membersOf {names : List String} {mandatory : Nat} {j : Json} {ms : List (Option Json)}
    (hj : j.Ordered) (h : membersOf? names mandatory j = some ms) : ∀ m ∈ ms, ∀ v ∈ m, v.Ordered := by
  intro m hm v hv
  obtain rfl := hv
  cases j with
  | obj members =>
    obtain rfl := Option.some.inj h
    obtain ⟨name, -, hname⟩ := List.mem_map.mp hm
    exact (Json.ordered_obj_iff.mp hj).2 _ (Json.mem_of_lookup hname)
  | arr elements =>
    rw [membersOf?] at h
    split at h
    · obtain rfl := Option.some.inj h
      rcases List.mem_append.mp hm with hm | hm
      · obtain ⟨i, hi, hsome⟩ := List.mem_map.mp hm
        exact Option.some.inj hsome ▸ Json.ordered_arr_iff.mp hj i hi
      · exact absurd (List.eq_of_mem_replicate hm) (Option.some_ne_none v)
    · cases h
  | _ => cases h

theorem mem_of_present {j? : Option Json} {v : Json} (h : v ∈ Json.present? j?) : v ∈ j? := by
  unfold Json.present? at h
  split at h
  · cases h
  · exact h

theorem forall_mem_readAll {α : Type} {read : Json → Option α} {P : Json → Prop} {Q : α → Prop}
    (hread : ∀ j, P j → ∀ a ∈ read j, Q a) {js : List Json} {as : List α} (hjs : ∀ j ∈ js, P j)
    (h : readAll read js = some as) : ∀ a ∈ as, Q a := by
  induction js generalizing as with
  | nil =>
    obtain rfl := Option.some.inj h
    simp
  | cons j js ih =>
    obtain ⟨b, hb, h⟩ := Option.bind_eq_some_iff.mp h
    obtain ⟨bs, hbs, h⟩ := Option.bind_eq_some_iff.mp h
    obtain rfl := Option.some.inj h
    intro a ha
    rcases List.mem_cons.mp ha with rfl | ha
    · exact hread j (hjs j List.mem_cons_self) a hb
    · exact ih (fun i hi => hjs i (List.mem_cons_of_mem _ hi)) hbs a ha

theorem mem_of_readOptional {α : Type} {read : Json → Option α} {j? : Option Json} {a? : Option α}
    (h : readOptional read j? = some a?) : ∀ a ∈ a?, ∃ j ∈ j?, read j = some a := by
  intro a ha
  obtain rfl := ha
  unfold readOptional at h
  split at h
  · cases h
  · rename_i v hv
    obtain ⟨b, hb, hsome⟩ := Option.map_eq_some_iff.mp h
    exact ⟨v, mem_of_present hv, Option.some.inj hsome ▸ hb⟩

theorem Choice.ordered_ofJson {j : Json} (hj : j.Ordered) : ∀ c ∈ Choice.ofJson? j, c.value.Ordered := by
  intro c hc
  obtain ⟨ms, hms, hc⟩ := Option.bind_eq_some_iff.mp hc
  have hordered := ordered_of_mem_membersOf hj hms
  split at hc
  · rename_i label value
    obtain ⟨text, -, hc⟩ := Option.bind_eq_some_iff.mp hc
    obtain rfl := Option.some.inj hc
    exact hordered (some value) (by simp) value rfl
  · cases hc

/-- Every field that is read from a value in order is in order. -/
theorem Field.ordered_ofJson {j : Json} (hj : j.Ordered) {f : Field} (h : Field.ofJson? j = some f) :
    f.Ordered := by
  obtain ⟨ms, hms, h⟩ := Option.bind_eq_some_iff.mp h
  have hordered := ordered_of_mem_membersOf hj hms
  split at h
  · rename_i key label description kind component defaultValue required choices validator uiProps
    obtain ⟨_, -, h⟩ := Option.bind_eq_some_iff.mp h
    obtain ⟨_, -, h⟩ := Option.bind_eq_some_iff.mp h
    obtain ⟨_, -, h⟩ := Option.bind_eq_some_iff.mp h
    obtain ⟨_, -, h⟩ := Option.bind_eq_some_iff.mp h
    obtain ⟨_, -, h⟩ := Option.bind_eq_some_iff.mp h
    obtain ⟨_, -, h⟩ := Option.bind_eq_some_iff.mp h
    obtain ⟨cs, hcs, h⟩ := Option.bind_eq_some_iff.mp h
    obtain rfl := Option.some.inj h
    exact {
      defaultValue := fun v hv => hordered defaultValue (by simp) v (mem_of_present hv)
      choices := by
        intro options hoptions
        obtain ⟨v, hv, hread⟩ := mem_of_readOptional hcs options hoptions
        obtain ⟨elements, harr, hall⟩ := Option.bind_eq_some_iff.mp hread
        have helements : (Json.arr elements).Ordered := by
          cases v <;> cases harr
          exact hordered choices (by simp) _ hv
        exact forall_mem_readAll (fun _ => Choice.ordered_ofJson) (Json.ordered_arr_iff.mp helements) hall
      validator := fun v hv => hordered validator (by simp) v (mem_of_present hv)
      uiProps := fun v hv => hordered uiProps (by simp) v (mem_of_present hv) }
  · cases h

end StrategyBench
