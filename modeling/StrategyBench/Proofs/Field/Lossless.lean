/-
StrategyBench.Proofs.Field.Lossless — fields and schemas, written as JSON and read back.

A field whose payloads are not null, as no field is that is read or declared, is read back from its
JSON as it was (`Field.ofJson?_toJson`): a member that is left out reads as absent, and no other member
has its name. So whatever a schema was read from, an object with other members in it or an array,
writing it and reading it again comes to the same schema, and no comparison shows a change
(`reading_back_changes_nothing`).
-/

import StrategyBench.Proofs.Compare.Symmetry
import StrategyBench.Proofs.Field.FixedPoint

namespace StrategyBench

/-! ## Optional members and lists -/

section Reading

variable {α : Type} {read : Json → Option α} {write : α → Json}

theorem readOptional_map (hread : ∀ a, read (write a) = some a) (hpresent : ∀ a, write a ≠ .null) (a? : Option α) :
    readOptional read (a?.map write) = some a? := by
  cases a? with
  | none => rfl
  | some a =>
    have hcounts : Json.present? (some (write a)) = some (write a) :=
      Declaration.present_of_ne_null (by simpa using hpresent a)
    simp [readOptional, hcounts, hread]

theorem readAll_map {as : List α} (hread : ∀ a ∈ as, read (write a) = some a) : readAll read (as.map write) = some as := by
  induction as with
  | nil => rfl
  | cons a as ih =>
    have hrest := ih fun b hb => hread b (List.mem_cons_of_mem _ hb)
    simp [readAll, hread a List.mem_cons_self, hrest]

theorem readList_arr {as : List α} (hread : ∀ a ∈ as, read (write a) = some a) :
    readList read (.arr (as.map write)) = some as := by
  simp [readList, Json.arr?, readAll_map hread]

theorem present_ne_null (j? : Option Json) : Json.present? j? ≠ some .null := by
  unfold Json.present?
  split
  · simp
  · assumption

end Reading

/-! ## Fields -/

/-- The payloads of a field are absent or not null. -/
structure Field.Stated (f : Field) : Prop where
  defaultValue : f.defaultValue ≠ some .null
  validator : f.validator ≠ some .null
  uiProps : f.uiProps ≠ some .null

theorem Choice.ofJson?_toJson (c : Choice) : Choice.ofJson? c.toJson = some c := rfl

theorem readChoices_toJson (cs? : Option (List Choice)) :
    readOptional (readList Choice.ofJson?) (cs?.map fun cs => .arr (cs.map Choice.toJson)) = some cs? :=
  readOptional_map (fun _ => readList_arr fun c _ => c.ofJson?_toJson) (fun _ => Json.noConfusion) cs?

namespace Field

/-- The members of a field, by place, as the reader looks them up in its JSON. -/
theorem membersOf?_toJson (f : Field) :
    membersOf? memberNames 7 f.toJson =
      some [some (.str f.key), some (.str f.label), f.description.map .str, some (.str f.kind),
        some (.str f.component), f.defaultValue, some (.bool f.required),
        f.choices.map fun cs => .arr (cs.map Choice.toJson), f.validator, f.uiProps] := by
  have hlookup : membersOf? memberNames 7 f.toJson = some (memberNames.map f.toJson.get?) := rfl
  rw [hlookup]
  simp only [memberNames, List.map_cons, List.map_nil, get?_toJson, String.reduceEq, reduceIte]

/-- A field whose payloads are not null is read back as it was. -/
theorem ofJson?_toJson {f : Field} (h : f.Stated) : ofJson? f.toJson = some f := by
  have hdescription : readOptional Json.str? (f.description.map .str) = some f.description :=
    @readOptional_map _ Json.str? Json.str (fun _ => rfl) (fun _ => Json.noConfusion) f.description
  have hpayload {v? : Option Json} (hv : v? ≠ some .null) : Json.present? v? = v? := Declaration.present_of_ne_null hv
  rw [ofJson?, membersOf?_toJson]
  simp [Json.str?, Json.bool?, hdescription, readChoices_toJson, hpayload h.defaultValue, hpayload h.validator,
    hpayload h.uiProps]

/-- Whatever a field is read from, null reads as absent. -/
theorem stated_of_ofJson {j : Json} {f : Field} (h : ofJson? j = some f) : f.Stated := by
  obtain ⟨members, -, h⟩ := Option.bind_eq_some_iff.mp h
  split at h
  · simp only [Option.bind_eq_bind, Option.bind_eq_some_iff, Option.some.injEq] at h
    obtain ⟨_, -, _, -, _, -, _, -, _, -, _, -, _, -, rfl⟩ := h
    exact ⟨present_ne_null _, present_ne_null _, present_ne_null _⟩
  · cases h

end Field

theorem Declaration.stated_of_normalize {raw : Json} {c : Category} {kind : String} {f : Field}
    (h : normalize? raw c kind = some f) : f.Stated := by
  unfold normalize? at h
  split at h
  · cases h
  · obtain rfl := Option.some.inj h
    exact ⟨firstPresent_ne_null _ _, firstPresent_ne_null _ _, firstPresent_ne_null _ _⟩

/-! ## Schemas -/

/-- No payload of a schema is null. -/
def Schema.Stated (s : Schema) : Prop := ∀ c, ∀ f ∈ s.fields c, f.Stated

namespace Schema

theorem ofJson?_toJson {s : Schema} (h : s.Stated) : ofJson? s.toJson = some s := by
  have hlist (c : Category) : readList Field.ofJson? (.arr ((s.fields c).map Field.toJson)) = some (s.fields c) :=
    readList_arr fun f hf => Field.ofJson?_toJson (h c f hf)
  have hparameters := hlist .parameter
  have hfactors := hlist .factor
  simp only [fields] at hparameters hfactors
  have hmembers : membersOf? ["parameters", "factors"] 2 s.toJson =
      some [some (.arr (s.parameters.map Field.toJson)), some (.arr (s.factors.map Field.toJson))] := rfl
  rw [ofJson?, hmembers]
  simp [hparameters, hfactors]

theorem stated_of_ofJson {j : Json} {s : Schema} (h : ofJson? j = some s) : s.Stated := by
  have hlist {j : Json} {fs : List Field} (hread : readList Field.ofJson? j = some fs) : ∀ f ∈ fs, f.Stated := by
    obtain ⟨js, -, hall⟩ := Option.bind_eq_some_iff.mp hread
    exact forall_mem_readAll (P := fun _ => True) (fun j _ f hf => Field.stated_of_ofJson hf) (fun _ _ => trivial) hall
  obtain ⟨members, -, h⟩ := Option.bind_eq_some_iff.mp h
  split at h
  · simp only [Option.bind_eq_bind, Option.bind_eq_some_iff, Option.some.injEq] at h
    obtain ⟨parameters, hparameters, factors, hfactors, rfl⟩ := h
    intro c
    cases c with
    | parameter => exact hlist hparameters
    | factor => exact hlist hfactors
  · cases h

end Schema

/-! ## Comparing what is read back -/

mutual
theorem Json.same_self (j : Json) : j.same j = true := by
  cases j with
  | arr js => exact sameElements_self js
  | obj ms => exact sameMembers_self ms
  | _ => simp [same]

theorem Json.sameElements_self (js : List Json) : sameElements js js = true := by
  cases js with
  | nil => rfl
  | cons j js => simp [sameElements, same_self j, sameElements_self js]

theorem Json.sameMembers_self (ms : List (String × Json)) : sameMembers ms ms = true := by
  cases ms with
  | nil => rfl
  | cons m ms => simp [sameMembers, same_self m.2, sameMembers_self ms]
end

section Containers

variable {α : Type} {same : α → α → Bool}

theorem sameOption_self (hsame : ∀ a, same a a = true) (a? : Option α) : sameOption same a? a? = true := by
  cases a? with
  | none => rfl
  | some a => exact hsame a

theorem sameList_self (hsame : ∀ a, same a a = true) (as : List α) : sameList same as as = true := by
  induction as with
  | nil => rfl
  | cons a as ih => simp [sameList, hsame, ih]

end Containers

theorem Choice.same_self (c : Choice) : c.same c = true := by
  simp [Choice.same, Json.same_self]

theorem Field.same_self (f : Field) : f.same f = true := by
  have hpayload := sameOption_self Json.same_self
  have hchoices := sameOption_self (sameList_self Choice.same_self)
  simp [same, hpayload, hchoices]

/-- A list of fields compared with itself has not changed, even if keys stand in it more than once. -/
theorem Compare.hasChanges_self (fs : List Field) : (diffFields fs fs).hasChanges = false :=
  (hasChanges_eq_false_iff fs fs).mpr fun _ => sameOption_self Field.same_self _

/-- Fields and schemas whose payloads are not null, as those of every declaration are, are read back from
their JSON as they were; so are those that were read from any JSON before. No comparison of a schema with
what is read back of it shows a change. -/
theorem reading_back_changes_nothing :
    (∀ f : Field, f.Stated → Field.ofJson? f.toJson = some f) ∧
    (∀ raw c kind f, Declaration.normalize? raw c kind = some f → f.Stated) ∧
    (∀ j f, Field.ofJson? j = some f → Field.ofJson? f.toJson = some f) ∧
    (∀ s : Schema, s.Stated → Schema.ofJson? s.toJson = some s) ∧
    (∀ j s, Schema.ofJson? j = some s → Schema.ofJson? s.toJson = some s) ∧
    ∀ s t : Schema, s.Stated → Schema.ofJson? s.toJson = some t →
      ∀ c, (Compare.diffFields (s.fields c) (t.fields c)).hasChanges = false := by
  refine ⟨fun f => Field.ofJson?_toJson, fun raw c kind f => Declaration.stated_of_normalize, fun j f hf => ?_,
    fun s => Schema.ofJson?_toJson, fun j s hs => ?_, fun s t hs ht c => ?_⟩
  · exact Field.ofJson?_toJson (Field.stated_of_ofJson hf)
  · exact Schema.ofJson?_toJson (Schema.stated_of_ofJson hs)
  · rw [Schema.ofJson?_toJson hs] at ht
    obtain rfl := Option.some.inj ht
    exact Compare.hasChanges_self _

/-- A parameter by places, with an option that stands for null, and a factor with a null and a foreign member. -/
def mixedSchema : Json :=
  .arr [.arr [.arr [.str "side", .str "Side", .null, .str "enum", .str "select", .null, .bool true,
          .arr [.arr [.str "any", .null]]]],
        .arr [.obj [("component", .str "input"), ("key", .str "alpha"), ("label", .str "Alpha"), ("note", .int 1),
          ("required", .bool false), ("type", .str "custom"), ("uiProps", .obj [("hint", .null)]),
          ("validator", .null)]]]

theorem mixed_schema_is_read_back :
    ∃ s, Schema.ofJson? mixedSchema = some s ∧ s.parameters.map Field.choices = [some [⟨"any", .null⟩]] ∧
      s.factors.map (fun f => (f.validator, f.uiProps)) = [(none, some (.obj [("hint", .null)]))] ∧
      Schema.ofJson? s.toJson = some s ∧
      ∀ c, (Compare.diffFields (s.fields c) (s.fields c)).hasChanges = false := by
  obtain ⟨-, -, -, -, hread, hsame⟩ := reading_back_changes_nothing
  have hs : Schema.ofJson? mixedSchema = some _ := rfl
  have hagain := hread _ _ hs
  exact ⟨_, hs, rfl, rfl, hagain, hsame _ _ (Schema.stated_of_ofJson hs) hagain⟩

end StrategyBench
