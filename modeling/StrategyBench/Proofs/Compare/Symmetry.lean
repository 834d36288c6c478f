/-
StrategyBench.Proofs.Compare.Symmetry — comparing two lists of fields the other way round.

What was added is removed then, and what has changed has changed back (`diffFields_symmetric`). The
two runs treat their lists differently, but both only see what each key stands for; so nothing has
changed exactly when the lists stand for the same map from keys to fields, in whatever order they
are (`hasChanges_eq_false_iff`).
-/

import StrategyBench.Proofs.Compare.Partition
import StrategyBench.Proofs.Field.Equality

namespace StrategyBench.Compare

/-! ## What a list stands for -/

/-- The field that a list has for a key: the last one counts. -/
def fieldFor? (fs : List Field) (k : String) : Option Field := fs.reverse.find? (·.key = k)

/-- Two lists stand for the same map from keys to fields. -/
def SameMap (x y : List Field) : Prop := ∀ k, Option.Rel Field.Alike (fieldFor? x k) (fieldFor? y k)

theorem lastWith?_eq_fieldFor? (k : String) (fs : List Field) : lastWith? k fs = fieldFor? fs k := by
  induction fs with
  | nil => rfl
  | cons f fs ih =>
    rw [lastWith?, ih, fieldFor?, fieldFor?, List.reverse_cons, List.find?_append, List.find?_singleton]
    simp

theorem mem_of_lastWith? {k : String} {f : Field} {fs : List Field} (h : lastWith? k fs = some f) : f ∈ fs := by
  rw [lastWith?_eq_fieldFor?] at h
  exact List.mem_reverse.mp (List.mem_of_find?_eq_some h)

/-! ## The other way round -/

/-- A change back. -/
def ChangedField.swap (c : ChangedField) : ChangedField := ⟨c.after, c.before⟩

section Swap

variable (x y : List Field)

theorem nodup_changed : (diffFields x y).changed.Nodup :=
  List.Nodup.of_map (fun c : ChangedField => c.after.key) (List.nodup_append'.mp (nodup_keys_common x y)).1

theorem mem_changed_swap {c : ChangedField} (hc : c ∈ (diffFields y x).changed) :
    c.swap ∈ (diffFields x y).changed := by
  have hkey := (paired_of_mem_changed y x hc).2
  obtain ⟨hbefore, hafter, hdiffers⟩ := (mem_changed_iff y x c).mp hc
  rw [← hkey] at hbefore hafter
  exact (mem_changed_iff x y c.swap).mpr ⟨hafter, hbefore, Field.same_comm c.before c.after ▸ hdiffers⟩

theorem changed_perm : (diffFields y x).changed.Perm ((diffFields x y).changed.map ChangedField.swap) := by
  have hinjective : Function.Injective ChangedField.swap := fun c d h => by
    cases c; cases d; cases h; rfl
  refine (List.perm_ext_iff_of_nodup (nodup_changed y x) ((nodup_changed x y).map hinjective)).mpr fun c => ?_
  constructor
  · exact fun hc => List.mem_map.mpr ⟨c.swap, mem_changed_swap x y hc, rfl⟩
  · intro hc
    obtain ⟨d, hd, rfl⟩ := List.mem_map.mp hc
    exact mem_changed_swap y x hd

theorem keys_unchanged_perm :
    ((diffFields y x).unchanged.map Field.key).Perm ((diffFields x y).unchanged.map Field.key) := by
  refine (List.perm_ext_iff_of_nodup (List.nodup_append'.mp (nodup_keys_common y x)).2.1
    (List.nodup_append'.mp (nodup_keys_common x y)).2.1).mpr fun k => ?_
  rw [mem_keys_unchanged, mem_keys_unchanged]
  constructor
  · rintro ⟨old, new, hold, hnew, hsame⟩
    exact ⟨new, old, hnew, hold, Field.same_comm old new ▸ hsame⟩
  · rintro ⟨old, new, hold, hnew, hsame⟩
    exact ⟨new, old, hnew, hold, Field.same_comm old new ▸ hsame⟩

end Swap

/-! ## No change -/

theorem hasChanges_eq_false (d : FieldDiff) : d.hasChanges = false ↔ d.added = [] ∧ d.removed = [] ∧ d.changed = [] := by
  simp [FieldDiff.hasChanges, and_assoc]

theorem keys_eq_nil_iff {α : Type} {xs : List α} (key : α → String) : xs = [] ↔ ∀ k, k ∉ xs.map key := by
  rw [← List.eq_nil_iff_forall_not_mem, List.map_eq_nil_iff]

/-- Nothing has changed exactly when no key stands for different fields. -/
theorem hasChanges_eq_false_iff (x y : List Field) :
    (diffFields x y).hasChanges = false ↔
      ∀ k, sameOption Field.same (lastWith? k x) (lastWith? k y) = true := by
  rw [hasChanges_eq_false, keys_eq_nil_iff Field.key, keys_eq_nil_iff Field.key,
    keys_eq_nil_iff fun c : ChangedField => c.after.key]
  simp only [mem_keys_added, mem_keys_removed, mem_keys_changed]
  simp only [← exists_lastWith?_iff]
  rw [← forall_and, ← forall_and]
  refine forall_congr' fun k => ?_
  cases lastWith? k x <;> cases lastWith? k y <;> simp [sameOption]

/-- The order of the lists decides only what is called before and after, and there is no change
exactly when both stand for the same map. -/
theorem diffFields_symmetric {x y : List Field} (hx : ∀ f ∈ x, f.Ordered) (hy : ∀ f ∈ y, f.Ordered) :
    (diffFields y x).added = (diffFields x y).removed ∧
      (diffFields y x).removed = (diffFields x y).added ∧
      (diffFields y x).changed.Perm ((diffFields x y).changed.map ChangedField.swap) ∧
      ((diffFields y x).unchanged.map Field.key).Perm ((diffFields x y).unchanged.map Field.key) ∧
      ((diffFields x y).hasChanges = false ↔ SameMap x y) := by
  refine ⟨?_, ?_, changed_perm x y, keys_unchanged_perm x y, ?_⟩
  · rw [diffFields_added, diffFields_removed]
  · rw [diffFields_added, diffFields_removed]
  · rw [hasChanges_eq_false_iff]
    refine forall_congr' fun k => ?_
    rw [← lastWith?_eq_fieldFor?, ← lastWith?_eq_fieldFor?]
    exact sameOption_iff fun f hf g hg =>
      Field.same_iff_alike (hx f (mem_of_lastWith? hf)) (hy g (mem_of_lastWith? hg))

/-- A field for a window, with a default value. -/
def windowField (defaultValue : Json) : Field :=
  { key := "window", label := "Window", kind := "number", component := "number", required := true,
    defaultValue := some defaultValue }

theorem windowField_ordered {j : Json} (h : j.Ordered) : (windowField j).Ordered where
  defaultValue _ hj := Option.some.inj hj ▸ h
  choices := nofun
  validator := nofun
  uiProps := nofun

/-- The window stands twice before, for the integer one at last, and for the float one after. -/
theorem diffFields_of_repeated_window :
    (∀ f ∈ [windowField (.float .zero), windowField (.int 1)], f.Ordered) ∧
      (∀ f ∈ [windowField (.float (.ofNat 1))], f.Ordered) ∧
      (diffFields [windowField (.float (.ofNat 1))] [windowField (.float .zero), windowField (.int 1)]).changed.Perm
        ((diffFields [windowField (.float .zero), windowField (.int 1)]
          [windowField (.float (.ofNat 1))]).changed.map ChangedField.swap) ∧
      ¬SameMap [windowField (.float .zero), windowField (.int 1)] [windowField (.float (.ofNat 1))] := by
  have hbefore : ∀ f ∈ [windowField (.float .zero), windowField (.int 1)], f.Ordered := by
    simpa using ⟨windowField_ordered (.float _), windowField_ordered (.int 1)⟩
  have hafter : ∀ f ∈ [windowField (.float (.ofNat 1))], f.Ordered := by
    simpa using windowField_ordered (.float (.ofNat 1))
  obtain ⟨-, -, hchanged, -, hsame⟩ := diffFields_symmetric hbefore hafter
  refine ⟨hbefore, hafter, hchanged, fun h => ?_⟩
  exact absurd (hsame.mpr h) (by decide +kernel)

end StrategyBench.Compare
