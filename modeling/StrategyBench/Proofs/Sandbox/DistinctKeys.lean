/-
StrategyBench.Proofs.Sandbox.DistinctKeys — which repeated key a schema is refused for.

The keys of a list are gone through with those passed in mind. The first one met again stands at the
least place whose key stands earlier too (`firstRepeat?_eq_some_iff`), and none is met again only
where they are all different. So a schema is accepted exactly when the keys of each of its lists are
distinct, and is refused for the first repeat otherwise, parameters first (`distinctKeys_exact`).
-/

import StrategyBench.Proofs.Field.Canonical
import StrategyBench.Sandbox.Execute

namespace StrategyBench

/-! ## The first repeat of a list -/

/-- The key `k` at place `i` stands earlier in the list too, and no key before that place does. -/
structure FirstRepeat (keys : List String) (i : Nat) (k : String) : Prop where
  key : keys[i]? = some k
  earlier : k ∈ keys.take i
  least : ∀ j < i, ∀ l ∈ keys[j]?, l ∉ keys.take j

/-- No key of a distinct list stands earlier too. -/
theorem not_mem_take_of_nodup {keys : List String} {i : Nat} {k : String} (hdistinct : keys.Nodup)
    (hk : keys[i]? = some k) : k ∉ keys.take i := by
  intro hearlier
  obtain ⟨hi, rfl⟩ := List.getElem?_eq_some_iff.mp hk
  obtain ⟨j, hj, hsame⟩ := List.mem_take_iff_getElem.mp hearlier
  have heq : j = i := (List.getElem_inj hdistinct).mp hsame
  omega

namespace FirstRepeat

variable {keys : List String} {i j : Nat} {k l : String}

theorem not_nodup (h : FirstRepeat keys i k) : ¬keys.Nodup :=
  fun hdistinct => not_mem_take_of_nodup hdistinct h.key h.earlier

/-- There is only one first repeat. -/
theorem unique (h : FirstRepeat keys i k) (h' : FirstRepeat keys j l) : k = l := by
  rcases Nat.lt_trichotomy i j with hlt | rfl | hlt
  · exact absurd h.earlier (h'.least i hlt k h.key)
  · exact Option.some.inj (h.key.symm.trans h'.key)
  · exact absurd h'.earlier (h.least j hlt l h'.key)

/-- The first repeat comes right after keys that are different, and is one of them. -/
theorem of_split {before after : List String} (hk : k ∈ before) (hdistinct : before.Nodup) :
    FirstRepeat (before ++ k :: after) before.length k where
  key := by simp
  earlier := by simpa using hk
  least := by
    intro j hj l hl
    rw [List.getElem?_append_left hj] at hl
    rw [List.take_append_of_le_length (Nat.le_of_lt hj)]
    exact not_mem_take_of_nodup hdistinct hl

end FirstRepeat

/-- The key that is met again: those before it are different, and it is one of them or was passed before. -/
theorem split_of_firstRepeat? {seen keys : List String} {k : String} (h : firstRepeat? seen keys = some k) :
    ∃ before after, keys = before ++ k :: after ∧ (k ∈ before ∨ k ∈ seen) ∧
      before.Nodup ∧ ∀ l ∈ before, l ∉ seen := by
  -- what is passed grows with each key, so the keys before are also none of those passed at the start
  induction keys generalizing seen with
  | nil => cases h
  | cons l rest ih =>
    rw [firstRepeat?] at h
    split at h
    · rename_i hseen
      obtain rfl := Option.some.inj h
      exact ⟨[], rest, rfl, .inr (by simpa using hseen), List.nodup_nil, by simp⟩
    · rename_i hnew
      obtain ⟨before, after, rfl, hk, hdistinct, hpassed⟩ := ih h
      have hl : l ∉ before := fun hmem => hpassed l hmem List.mem_cons_self
      refine ⟨l :: before, after, rfl, ?_, List.nodup_cons.mpr ⟨hl, hdistinct⟩, ?_⟩
      · rcases hk with hk | hk
        · exact .inl (List.mem_cons_of_mem _ hk)
        · rcases List.mem_cons.mp hk with rfl | hk
          · exact .inl List.mem_cons_self
          · exact .inr hk
      · intro m hm
        rcases List.mem_cons.mp hm with rfl | hm
        · simpa using hnew
        · exact fun hseen => hpassed m hm (List.mem_cons_of_mem _ hseen)

theorem firstRepeat_of_eq_some {keys : List String} {k : String} (h : firstRepeat? [] keys = some k) :
    ∃ i, FirstRepeat keys i k := by
  obtain ⟨before, after, rfl, hk, hdistinct, -⟩ := split_of_firstRepeat? h
  rcases hk with hk | hk
  · exact ⟨before.length, .of_split hk hdistinct⟩
  · cases hk

/-- Going through a list finds its first repeat. -/
theorem firstRepeat?_eq_some_iff {keys : List String} {k : String} :
    firstRepeat? [] keys = some k ↔ ∃ i, FirstRepeat keys i k := by
  refine ⟨firstRepeat_of_eq_some, ?_⟩
  rintro ⟨i, hi⟩
  cases h : firstRepeat? [] keys with
  | none => exact absurd (nodup_of_firstRepeat h).1 hi.not_nodup
  | some l =>
    obtain ⟨j, hj⟩ := firstRepeat_of_eq_some h
    rw [hi.unique hj]

/-- Two keys stand twice; the one whose second place comes first is reported. -/
example : firstRepeat? [] ["dup", "x", "x", "dup"] = some "x" := by decide

/-- A list without a first repeat is one of distinct keys, and the other way. -/
theorem firstRepeat?_eq_none_iff {keys : List String} : firstRepeat? [] keys = none ↔ keys.Nodup := by
  refine ⟨fun h => (nodup_of_firstRepeat h).1, fun hdistinct => ?_⟩
  cases h : firstRepeat? [] keys with
  | none => rfl
  | some k =>
    obtain ⟨i, hi⟩ := firstRepeat_of_eq_some h
    exact absurd hdistinct hi.not_nodup

/-! ## Schemas -/

namespace Sandbox

theorem distinctKeys_eq_ok_iff {s t : Schema} :
    distinctKeys s = .ok t ↔ t = s ∧ (s.parameters.map Field.key).Nodup ∧ (s.factors.map Field.key).Nodup := by
  rw [← firstRepeat?_eq_none_iff, ← firstRepeat?_eq_none_iff, distinctKeys, Schema.repeatedKey?]
  cases firstRepeat? [] (s.parameters.map Field.key) with
  | some k => simp
  | none => cases firstRepeat? [] (s.factors.map Field.key) <;> simp [eq_comm]

theorem distinctKeys_eq_error_iff {s : Schema} {r : Rejection} :
    distinctKeys s = .error r ↔
      (∃ k, firstRepeat? [] (s.parameters.map Field.key) = some k ∧ r = .duplicateKey "parameters" k) ∨
      firstRepeat? [] (s.parameters.map Field.key) = none ∧
        ∃ k, firstRepeat? [] (s.factors.map Field.key) = some k ∧ r = .duplicateKey "factors" k := by
  rw [distinctKeys, Schema.repeatedKey?]
  cases firstRepeat? [] (s.parameters.map Field.key) with
  | some k => simp [Category.plural, eq_comm]
  | none => cases firstRepeat? [] (s.factors.map Field.key) <;> simp [Category.plural, eq_comm]

/-- A schema is accepted, as it is, exactly when the keys of each of its lists are distinct; the two lists may
share keys. Any other is refused for its first repeat: that of the parameters if their keys repeat, and that
of the factors otherwise. -/
theorem distinctKeys_exact (s : Schema) :
    (∀ t, distinctKeys s = .ok t ↔
      t = s ∧ (s.parameters.map Field.key).Nodup ∧ (s.factors.map Field.key).Nodup) ∧
    ∀ r, distinctKeys s = .error r ↔
      (∃ i k, FirstRepeat (s.parameters.map Field.key) i k ∧ r = .duplicateKey "parameters" k) ∨
      (s.parameters.map Field.key).Nodup ∧
        ∃ i k, FirstRepeat (s.factors.map Field.key) i k ∧ r = .duplicateKey "factors" k := by
  refine ⟨fun t => distinctKeys_eq_ok_iff, fun r => ?_⟩
  simp only [distinctKeys_eq_error_iff, firstRepeat?_eq_some_iff, firstRepeat?_eq_none_iff, exists_and_right,
    exists_comm (α := Nat)]

end Sandbox
end StrategyBench
