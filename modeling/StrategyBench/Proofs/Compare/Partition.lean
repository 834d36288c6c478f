/-
StrategyBench.Proofs.Compare.Partition — where each key of two lists of fields goes.

A list stands for its last fields, by place (`lastFields`): those whose key does not come again. The
later list's go to what is added, changed or unchanged, the earlier one's to what is removed, changed
or unchanged, each to one of them and in order (`diffFields_partitions`). All of it rests on two
facts: the last fields of a list have distinct keys (`nodup_keys_lastOccurrences`), and the field
that a key stands for is the last field with it (`lastWith?_eq_some_iff`).
-/

import Mathlib.Data.List.FinRange
import Mathlib.Data.List.Nodup
import StrategyBench.Compare.Fields

namespace StrategyBench.Compare

/-! ## Last fields by place -/

/-- The places of the fields whose key does not come again. -/
def lastPlaces (fs : List Field) : List (Fin fs.length) :=
  (List.finRange fs.length).filter fun i => ∀ j, i < j → fs[j].key ≠ fs[i].key

/-- The fields at these places, in the order of the list. -/
def lastFields (fs : List Field) : List Field := (lastPlaces fs).map fs.get

theorem last_zero_iff (f : Field) (fs : List Field) :
    (∀ j : Fin (f :: fs).length, 0 < j → (f :: fs)[j].key ≠ f.key) ↔ f.key ∉ fs.map Field.key := by
  constructor
  · intro h hmem
    obtain ⟨g, hg, hkey⟩ := List.mem_map.mp hmem
    obtain ⟨i, hi, rfl⟩ := List.mem_iff_getElem.mp hg
    exact h (Fin.succ ⟨i, hi⟩) (Fin.succ_pos _) hkey
  · intro h j hj hkey
    obtain ⟨i, rfl⟩ := Fin.exists_succ_eq.mpr (Fin.pos_iff_ne_zero.mp hj)
    exact h (List.mem_map.mpr ⟨fs[i], List.getElem_mem _, hkey⟩)

theorem last_succ_iff (f : Field) (fs : List Field) (i : Fin fs.length) :
    (∀ j : Fin (f :: fs).length, i.succ < j → (f :: fs)[j].key ≠ fs[i].key) ↔
      ∀ j : Fin fs.length, i < j → fs[j].key ≠ fs[i].key := by
  constructor
  · intro h j hj
    exact h j.succ (Fin.succ_lt_succ_iff.mpr hj)
  · intro h j hj
    obtain ⟨j, rfl⟩ := Fin.exists_succ_eq.mpr (Fin.ne_zero_of_lt hj)
    exact h j (Fin.succ_lt_succ_iff.mp hj)

theorem lastFields_cons (f : Field) (fs : List Field) :
    lastFields (f :: fs) = if f.key ∈ fs.map Field.key then lastFields fs else f :: lastFields fs := by
  have hrest : ((List.finRange fs.length).map Fin.succ).filter
      (fun i => ∀ j : Fin (f :: fs).length, i < j → (f :: fs)[j].key ≠ (f :: fs)[i].key) =
        (lastPlaces fs).map Fin.succ := by
    rw [List.filter_map, lastPlaces]
    congr 1
    refine List.filter_congr fun i _ => ?_
    exact decide_eq_decide.mpr (last_succ_iff f fs i)
  have hget : ((lastPlaces fs).map Fin.succ).map (f :: fs).get = lastFields fs := by
    rw [List.map_map]
    rfl
  have hplaces : lastPlaces (f :: fs) =
      if f.key ∈ fs.map Field.key then (lastPlaces fs).map Fin.succ
      else ⟨0, Nat.succ_pos _⟩ :: (lastPlaces fs).map Fin.succ := by
    have hrange : List.finRange (f :: fs).length = ⟨0, Nat.succ_pos _⟩ :: (List.finRange fs.length).map Fin.succ :=
      List.finRange_succ
    rw [lastPlaces, hrange, List.filter_cons, hrest]
    by_cases h : f.key ∈ fs.map Field.key
    · rw [if_pos h, if_neg]
      exact fun hlast => (last_zero_iff f fs).mp (of_decide_eq_true hlast) h
    · rw [if_neg h, if_pos]
      exact decide_eq_true ((last_zero_iff f fs).mpr h)
  rw [lastFields, hplaces]
  split
  · exact hget
  · rw [List.map_cons, hget]
    rfl

/-! ## Last fields by key -/

theorem mem_keys_lastFields (k : String) (fs : List Field) :
    k ∈ (lastFields fs).map Field.key ↔ k ∈ fs.map Field.key := by
  induction fs with
  | nil => rfl
  | cons f fs ih =>
    rw [lastFields_cons]
    split
    · rename_i hagain
      rw [ih, List.map_cons, List.mem_cons]
      exact ⟨Or.inr, fun h => h.elim (fun hk => hk ▸ hagain) id⟩
    · rw [List.map_cons, List.mem_cons, ih, List.map_cons, List.mem_cons]

theorem nodup_keys_lastFields (fs : List Field) : ((lastFields fs).map Field.key).Nodup := by
  induction fs with
  | nil => exact List.nodup_nil
  | cons f fs ih =>
    rw [lastFields_cons]
    split
    · exact ih
    · rename_i hnew
      exact List.nodup_cons.mpr ⟨fun h => hnew ((mem_keys_lastFields f.key fs).mp h), ih⟩

theorem any_key_iff (k : String) (fs : List Field) : fs.any (·.key = k) = true ↔ k ∈ fs.map Field.key := by
  simp [List.any_eq_true, List.mem_map]

theorem lastOccurrences_eq_lastFields (fs : List Field) : lastOccurrences fs = lastFields fs := by
  induction fs with
  | nil => rfl
  | cons f fs ih =>
    rw [lastFields_cons, lastOccurrences, ih]
    simp only [any_key_iff]

theorem lastWith?_eq_none_iff (k : String) (fs : List Field) :
    lastWith? k fs = none ↔ k ∉ fs.map Field.key := by
  induction fs with
  | nil => simp [lastWith?]
  | cons f fs ih =>
    rw [lastWith?, Option.or_eq_none_iff, ih, List.map_cons, List.mem_cons, not_or, and_comm]
    simp [eq_comm]

theorem exists_lastWith?_iff (k : String) (fs : List Field) :
    (∃ f, lastWith? k fs = some f) ↔ k ∈ fs.map Field.key := by
  rw [← Option.isSome_iff_exists, Option.isSome_iff_ne_none, ne_eq, lastWith?_eq_none_iff, not_not]

theorem mem_lastFields_cons (f g : Field) (fs : List Field) :
    f ∈ lastFields (g :: fs) ↔ f ∈ lastFields fs ∨ f = g ∧ g.key ∉ fs.map Field.key := by
  rw [lastFields_cons]
  split
  · rename_i hagain
    exact ⟨Or.inl, fun h => h.elim id fun h => absurd hagain h.2⟩
  · rename_i hnew
    rw [List.mem_cons, or_comm, and_iff_left hnew]

/-- A key stands for the last field with it. -/
theorem lastWith?_eq_some_iff (k : String) (f : Field) (fs : List Field) :
    lastWith? k fs = some f ↔ f ∈ lastFields fs ∧ f.key = k := by
  induction fs with
  | nil => simp [lastWith?, lastFields, lastPlaces]
  | cons g fs ih =>
    have hkeys (h : f ∈ lastFields fs ∧ f.key = k) : k ∈ fs.map Field.key :=
      (mem_keys_lastFields k fs).mp (List.mem_map.mpr ⟨f, h⟩)
    rw [lastWith?, mem_lastFields_cons]
    by_cases hagain : k ∈ fs.map Field.key
    · obtain ⟨h, hlast⟩ := (exists_lastWith?_iff k fs).mpr hagain
      rw [hlast, Option.some_or, ← hlast, ih]
      constructor
      · exact fun h => ⟨.inl h.1, h.2⟩
      · rintro ⟨hmem | ⟨rfl, hnew⟩, hkey⟩
        · exact ⟨hmem, hkey⟩
        · exact absurd (hkey ▸ hagain) hnew
    · rw [(lastWith?_eq_none_iff k fs).mpr hagain, Option.none_or]
      constructor
      · intro h
        obtain ⟨hg, hsome⟩ := Option.ite_none_right_eq_some.mp h
        obtain rfl := Option.some.inj hsome
        exact ⟨.inr ⟨rfl, hg ▸ hagain⟩, hg⟩
      · rintro ⟨hmem | ⟨rfl, -⟩, hkey⟩
        · exact absurd (hkeys ⟨hmem, hkey⟩) hagain
        · rw [if_pos hkey]

/-- The field that a key stands for, in both forms. -/
theorem exists_last_iff (k : String) (fs : List Field) (P : Field → Prop) :
    (∃ f ∈ lastFields fs, f.key = k ∧ P f) ↔ ∃ f, lastWith? k fs = some f ∧ P f := by
  simp only [lastWith?_eq_some_iff, and_assoc]

/-! ## The four lists -/

section Lists

variable (before after : List Field)

theorem diffFields_added :
    (diffFields before after).added = (lastFields after).filter fun f => f.key ∉ before.map Field.key := by
  simp only [diffFields, lastOccurrences_eq_lastFields]
  refine List.filter_congr fun f _ => ?_
  rw [Bool.eq_iff_iff, Option.isNone_iff_eq_none, lastWith?_eq_none_iff, decide_eq_true_iff]

theorem diffFields_removed :
    (diffFields before after).removed = (lastFields before).filter fun f => f.key ∉ after.map Field.key := by
  simp only [diffFields, lastOccurrences_eq_lastFields]
  refine List.filter_congr fun f _ => ?_
  rw [Bool.eq_iff_iff, hasKey, Bool.not_eq_true', ← Bool.not_eq_true, any_key_iff, decide_eq_true_iff]

theorem diffFields_unchanged :
    (diffFields before after).unchanged =
      (lastFields after).filter fun f => ∃ old ∈ lastFields before, old.key = f.key ∧ old.same f := by
  simp only [diffFields, lastOccurrences_eq_lastFields]
  refine List.filter_congr fun f _ => ?_
  rw [Bool.eq_iff_iff, decide_eq_true_iff, exists_last_iff f.key before fun old => old.same f]
  cases lastWith? f.key before <;> simp

theorem diffFields_changed_after :
    (diffFields before after).changed.map ChangedField.after =
      (lastFields after).filter fun f => ∃ old ∈ lastFields before, old.key = f.key ∧ ¬old.same f := by
  simp only [diffFields, lastOccurrences_eq_lastFields, List.map_filterMap]
  rw [← List.filterMap_eq_filter]
  refine List.filterMap_congr fun f _ => ?_
  simp only [Option.guard, exists_last_iff f.key before fun old => ¬old.same f, decide_eq_true_iff]
  cases lastWith? f.key before with
  | none => simp
  | some old => by_cases hsame : old.same f <;> simp [hsame]

/-- What has changed are the pairs of what a key stood for and stands for, where these differ. -/
theorem mem_changed_iff (c : ChangedField) :
    c ∈ (diffFields before after).changed ↔
      lastWith? c.after.key before = some c.before ∧ lastWith? c.after.key after = some c.after ∧
        ¬c.before.same c.after := by
  rw [lastWith?_eq_some_iff c.after.key c.after, and_iff_left rfl]
  simp only [diffFields, lastOccurrences_eq_lastFields, List.mem_filterMap]
  constructor
  · rintro ⟨f, hf, hc⟩
    obtain ⟨old, hold, hc⟩ := Option.bind_eq_some_iff.mp hc
    obtain ⟨hsame, hc⟩ := Option.ite_none_left_eq_some.mp hc
    obtain rfl := Option.some.inj hc
    exact ⟨hold, hf, hsame⟩
  · rintro ⟨hold, hafter, hsame⟩
    refine ⟨c.after, hafter, ?_⟩
    rw [hold]
    exact if_neg hsame

theorem paired_of_mem_changed {c : ChangedField} (hc : c ∈ (diffFields before after).changed) :
    c.before ∈ lastFields before ∧ c.before.key = c.after.key :=
  (lastWith?_eq_some_iff _ _ _).mp ((mem_changed_iff before after c).mp hc).1

end Lists

/-! ## The keys of the four lists -/

section Keys

variable (before after : List Field)

/-- The keys of the last fields whose key meets a condition. -/
theorem mem_keys_filter (fs : List Field) (q : String → Prop) [DecidablePred q] (k : String) :
    k ∈ ((lastFields fs).filter fun f => q f.key).map Field.key ↔ k ∈ fs.map Field.key ∧ q k := by
  rw [← mem_keys_lastFields k fs]
  simp only [List.mem_map, List.mem_filter, decide_eq_true_iff]
  constructor
  · rintro ⟨f, ⟨hf, hq⟩, rfl⟩
    exact ⟨⟨f, hf, rfl⟩, hq⟩
  · rintro ⟨⟨f, hf, rfl⟩, hq⟩
    exact ⟨f, ⟨hf, hq⟩, rfl⟩

theorem mem_keys_added (k : String) :
    k ∈ (diffFields before after).added.map Field.key ↔ k ∈ after.map Field.key ∧ k ∉ before.map Field.key := by
  rw [diffFields_added]
  exact mem_keys_filter after (· ∉ before.map Field.key) k

theorem mem_keys_removed (k : String) :
    k ∈ (diffFields before after).removed.map Field.key ↔ k ∈ before.map Field.key ∧ k ∉ after.map Field.key := by
  rw [diffFields_removed]
  exact mem_keys_filter before (· ∉ after.map Field.key) k

/-- A key of both lists has changed or has not, by what it stands for in them. -/
theorem mem_keys_unchanged (k : String) :
    k ∈ (diffFields before after).unchanged.map Field.key ↔
      ∃ old new, lastWith? k before = some old ∧ lastWith? k after = some new ∧ old.same new := by
  rw [diffFields_unchanged]
  simp only [lastWith?_eq_some_iff, List.mem_map, List.mem_filter, decide_eq_true_iff]
  constructor
  · rintro ⟨new, ⟨hnew, old, hold, hkey, hsame⟩, rfl⟩
    exact ⟨old, new, ⟨hold, hkey⟩, ⟨hnew, rfl⟩, hsame⟩
  · rintro ⟨old, new, ⟨hold, hkey⟩, ⟨hnew, rfl⟩, hsame⟩
    exact ⟨new, ⟨hnew, old, hold, hkey, hsame⟩, rfl⟩

theorem keys_changed_after :
    (diffFields before after).changed.map (·.after.key) =
      ((lastFields after).filter fun f => ∃ old ∈ lastFields before, old.key = f.key ∧ ¬old.same f).map Field.key := by
  rw [← diffFields_changed_after, List.map_map]
  rfl

theorem keys_changed_before :
    (diffFields before after).changed.map (·.before.key) = (diffFields before after).changed.map (·.after.key) :=
  List.map_congr_left fun _ hc => (paired_of_mem_changed before after hc).2

theorem mem_keys_changed (k : String) :
    k ∈ (diffFields before after).changed.map (·.after.key) ↔
      ∃ old new, lastWith? k before = some old ∧ lastWith? k after = some new ∧ ¬old.same new := by
  rw [keys_changed_after]
  simp only [lastWith?_eq_some_iff, List.mem_map, List.mem_filter, decide_eq_true_iff]
  constructor
  · rintro ⟨new, ⟨hnew, old, hold, hkey, hdiffers⟩, rfl⟩
    exact ⟨old, new, ⟨hold, hkey⟩, ⟨hnew, rfl⟩, hdiffers⟩
  · rintro ⟨old, new, ⟨hold, hkey⟩, ⟨hnew, rfl⟩, hdiffers⟩
    exact ⟨new, ⟨hnew, old, hold, hkey, hdiffers⟩, rfl⟩

/-- A key of both lists is one of what has changed or one of what has not. -/
theorem mem_keys_common (k : String) :
    k ∈ (diffFields before after).changed.map (·.after.key) ++ (diffFields before after).unchanged.map Field.key ↔
      k ∈ before.map Field.key ∧ k ∈ after.map Field.key := by
  rw [List.mem_append, mem_keys_changed, mem_keys_unchanged, ← exists_lastWith?_iff k before,
    ← exists_lastWith?_iff k after]
  constructor
  · rintro (⟨old, new, hold, hnew, -⟩ | ⟨old, new, hold, hnew, -⟩)
    all_goals exact ⟨⟨old, hold⟩, new, hnew⟩
  · rintro ⟨⟨old, hold⟩, new, hnew⟩
    by_cases hsame : old.same new
    · exact .inr ⟨old, new, hold, hnew, hsame⟩
    · exact .inl ⟨old, new, hold, hnew, hsame⟩

theorem nodup_keys_filter (fs : List Field) (p : Field → Bool) : (((lastFields fs).filter p).map Field.key).Nodup :=
  (nodup_keys_lastFields fs).sublist (List.filter_sublist.map _)

theorem nodup_keys_common :
    ((diffFields before after).changed.map (·.after.key) ++
      (diffFields before after).unchanged.map Field.key).Nodup := by
  refine List.nodup_append'.mpr ⟨?_, ?_, fun k hchanged hunchanged => ?_⟩
  · rw [keys_changed_after]
    exact nodup_keys_filter after _
  · rw [diffFields_unchanged]
    exact nodup_keys_filter after _
  · obtain ⟨old, new, hold, hnew, hdiffers⟩ := (mem_keys_changed before after k).mp hchanged
    obtain ⟨old', new', hold', hnew', hsame⟩ := (mem_keys_unchanged before after k).mp hunchanged
    rw [hold, Option.some_inj] at hold'
    rw [hnew, Option.some_inj] at hnew'
    exact hdiffers (hold' ▸ hnew' ▸ hsame)

end Keys

/-! ## The partition -/

/-- Where the keys of two lists go. -/
structure FieldDiff.Partitions (before after : List Field) (d : FieldDiff) : Prop where
  /-- No key of the later list stands twice, in one of the three lists or in two of them. -/
  after_once : (d.added.map Field.key ++ (d.changed.map (·.after.key) ++ d.unchanged.map Field.key)).Nodup
  after_all : ∀ k, k ∈ d.added.map Field.key ++ (d.changed.map (·.after.key) ++ d.unchanged.map Field.key) ↔
    k ∈ after.map Field.key
  before_once : (d.removed.map Field.key ++ (d.changed.map (·.before.key) ++ d.unchanged.map Field.key)).Nodup
  before_all : ∀ k, k ∈ d.removed.map Field.key ++ (d.changed.map (·.before.key) ++ d.unchanged.map Field.key) ↔
    k ∈ before.map Field.key
  added : d.added = (lastFields after).filter fun f => f.key ∉ before.map Field.key
  removed : d.removed = (lastFields before).filter fun f => f.key ∉ after.map Field.key
  unchanged : d.unchanged =
    (lastFields after).filter fun f => ∃ old ∈ lastFields before, old.key = f.key ∧ old.same f
  changed : d.changed.map ChangedField.after =
    (lastFields after).filter fun f => ∃ old ∈ lastFields before, old.key = f.key ∧ ¬old.same f
  /-- A changed field comes with the last one of its key in the earlier list. -/
  paired : ∀ c ∈ d.changed, c.before ∈ lastFields before ∧ c.before.key = c.after.key

/-- Each key of either list goes to exactly one place, by what it last stands for, and the order of
the lists is kept. -/
theorem diffFields_partitions (before after : List Field) :
    (diffFields before after).Partitions before after where
  after_once := by
    refine List.nodup_append'.mpr ⟨?_, nodup_keys_common before after, fun k hadded hcommon => ?_⟩
    · rw [diffFields_added]
      exact nodup_keys_filter after _
    · exact ((mem_keys_added before after k).mp hadded).2 ((mem_keys_common before after k).mp hcommon).1
  after_all k := by
    rw [List.mem_append, mem_keys_added, mem_keys_common]
    tauto
  before_once := by
    rw [keys_changed_before]
    refine List.nodup_append'.mpr ⟨?_, nodup_keys_common before after, fun k hremoved hcommon => ?_⟩
    · rw [diffFields_removed]
      exact nodup_keys_filter before _
    · exact ((mem_keys_removed before after k).mp hremoved).2 ((mem_keys_common before after k).mp hcommon).2
  before_all k := by
    rw [keys_changed_before, List.mem_append, mem_keys_removed, mem_keys_common]
    tauto
  added := diffFields_added before after
  removed := diffFields_removed before after
  unchanged := diffFields_unchanged before after
  changed := diffFields_changed_after before after
  paired _ hc := paired_of_mem_changed before after hc

end StrategyBench.Compare
