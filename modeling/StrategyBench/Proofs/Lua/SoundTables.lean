/-
StrategyBench.Proofs.Lua.SoundTables — keys stay in the parts of a table that they belong to.

The dense part of a table has the keys from one to its size. So an integer key of the ordered part is none
of those, and other keys are as they were normalized, neither nil nor "not a number" (`Table.Sound`).
Whatever is put into a table keeps that, also when both parts are sized anew (`Sound.set`, `Sound.setFrom`).
-/

import StrategyBench.Lua.Call
import StrategyBench.Proofs.Lua.Allocation
import StrategyBench.Proofs.Lua.Keys

namespace StrategyBench.Lua

namespace Value

/-- A key that tables have: a normal one, neither nil nor "not a number". -/
def IsKey : Value → Prop
  | nil => False
  | float x => x.isNaN = false ∧ Numeral.exactInt? x = none
  | _ => True

theorem IsKey.normalKey {k : Value} (h : k.IsKey) : k.normalKey = k := by
  cases k with
  | float x => rw [Value.normalKey, h.2]
  | _ => rfl

theorem IsKey.isNil {k : Value} (h : k.IsKey) : k.isNil = false := by
  cases k with
  | nil => exact h.elim
  | _ => rfl

/-- What is not refused as a key comes to one that tables have. -/
theorem isKey_normalKey {k : Value} (h : Machine.keyRefusal k = none) : k.normalKey.IsKey := by
  cases k with
  | nil => cases h
  | float x =>
    rw [normalKey]
    cases hint : Numeral.exactInt? x with
    | some i => trivial
    | none =>
      refine ⟨?_, hint⟩
      by_contra hnan
      rw [Machine.keyRefusal, if_pos (by simpa using hnan)] at h
      cases h
  | _ => trivial

end Value

namespace Table

/-! ## Keys in their parts -/

/-- A key that belongs to the ordered part: one that tables have, and none of the dense part. -/
structure Keyable (t : Table) (k : Value) : Prop where
  isKey : k.IsKey
  apart : ∀ i, k = .int i → t.inDense i = false

/-- Each key is in the part that it belongs to. -/
def Sound (t : Table) : Prop := ∀ e ∈ t.other.toList, t.Keyable e.1

variable {t u : Table} {k : Value}

theorem Keyable.get (h : t.Keyable k) : t.get k = t.keyed k := by
  cases k with
  | nil => exact h.isKey.elim
  | int i => rw [Table.get, getInt, h.apart i rfl, if_neg Bool.false_ne_true]
  | float x => rw [Table.get, h.isKey.1, if_neg Bool.false_ne_true]
  | _ => rfl

theorem inDense_congr (h : u.dense.size = t.dense.size) (i : Int64) : u.inDense i = t.inDense i := by
  rw [inDense, inDense, h]

/-- A table with a dense part of the same size is sound if its new keys belong to the ordered part. -/
theorem Sound.of_entries (ht : t.Sound) (hsize : u.dense.size = t.dense.size)
    (hentries : ∀ e ∈ u.other.toList, e ∈ t.other.toList ∨ t.Keyable e.1) : u.Sound := by
  intro e he
  have hkey : t.Keyable e.1 := (hentries e he).elim (ht e) id
  exact ⟨hkey.isKey, fun i hi => (inDense_congr hsize i).trans (hkey.apart i hi)⟩

theorem sound_of_none (h : t.other = {}) : t.Sound := by
  intro e he
  rw [h] at he
  cases he

theorem sound_empty : ({} : Table).Sound := sound_of_none rfl

theorem sound_of_strings (h : ∀ e ∈ t.other.toList, ∃ s, e.1 = .str s) : t.Sound := by
  intro e he
  obtain ⟨s, hs⟩ := h e he
  exact ⟨hs ▸ trivial, fun i hi => nomatch hs.symm.trans hi⟩

/-- Where a border was last seen is of no matter. -/
theorem Similar.sound (h : t.Similar u) (ht : t.Sound) : u.Sound :=
  ht.of_entries (congrArg Array.size h.dense) fun _ he => .inl (h.other ▸ he)

theorem Sound.insert (ht : t.Sound) (hk : t.Keyable k) (v : Value) :
    Sound { t with other := t.other.insert k v } := by
  refine ht.of_entries rfl fun e he => ?_
  rcases KeyMap.mem_toList_insert he with rfl | he
  · exact .inr hk
  · exact .inl he

theorem Sound.putDense (ht : t.Sound) (i : Nat) (v : Value) : Sound { t with dense := putAt t.dense i v } :=
  ht.of_entries Array.size_setIfInBounds fun _ => .inl

/-! ## Putting values in place -/

theorem Sound.place (ht : t.Sound) (hk : k.IsKey) (v : Value) : (t.place k v).Sound := by
  unfold Table.place
  split
  · split
    · exact ht.putDense _ v
    · rename_i hout
      refine ht.insert ⟨hk, fun j hj => ?_⟩ v
      cases hj
      simpa using hout
  · rename_i hint
    exact ht.insert ⟨hk, fun i hi => absurd hi (hint i)⟩ v

theorem Sound.placeFrom (ht : t.Sound) (i : Nat) (vs : List Value) : (t.placeFrom i vs).Sound := by
  induction vs generalizing t i with
  | nil => exact ht
  | cons v vs ih => exact ih (ht.place (k := .int (Int64.ofNat i)) trivial v) (i + 1)

/-- Whatever the sizes are that both parts are given, the keys go where they belong then. -/
theorem Sound.resize (ht : t.Sound) (dense keys : Nat) : (t.resize dense keys).Sound := by
  unfold Table.resize
  extract_lets kept leaving base put
  have hput {t : Table} (ht : t.Sound) {k : Value} (hk : k.IsKey) (v : Value) : (put t k v).Sound := by
    unfold put
    split
    · exact ht
    · exact ht.place hk v
  have hbase : base.Sound := sound_of_none rfl
  clear_value base put
  dsimp only
  rw [Std.TreeMap.foldl_eq_foldl_toList, ← Array.foldl_toList]
  refine List.foldlRecOn _ _ ?_ fun u hu e he => hput hu (ht e he).isKey e.2
  exact List.foldlRecOn (motive := fun acc : Table × Nat => acc.1.Sound) _ _ hbase fun acc hacc v _ =>
    hput (k := .int (Int64.ofNat acc.2)) hacc trivial v

theorem Sound.rehash (ht : t.Sound) (extra : Value) : (t.rehash extra).Sound := by
  unfold Table.rehash
  dsimp only
  exact ht.resize _ _

theorem Sound.touch (ht : t.Sound) (k : Value) : (t.touch k).Sound := (Similar.touch t k).sound ht

theorem Sound.insertKey (ht : t.Sound) (hk : t.Keyable k) (v : Value) : (set.insertKey t k v).Sound := by
  unfold set.insertKey
  split
  · exact ht.insert hk v
  · split
    · exact ht
    · split
      · exact ht.insert hk v
      · exact (ht.rehash k).place hk.isKey v

theorem Sound.set (ht : t.Sound) (hk : k.IsKey) (v : Value) : (t.set k v).Sound := by
  have htouched := ht.touch k
  unfold Table.set
  generalize t.touch k = u at htouched
  dsimp only
  split
  · split
    · exact htouched.putDense _ v
    · rename_i hout
      refine htouched.insertKey ⟨hk, fun j hj => ?_⟩ v
      cases hj
      simpa using hout
  · rename_i hint
    exact htouched.insertKey ⟨hk, fun i hi => absurd hi (hint i)⟩ v

theorem Sound.setFrom (ht : t.Sound) (start : Nat) (vs : List Value) : (t.setFrom start vs).Sound := by
  unfold Table.setFrom
  extract_lets last grown
  have hgrown : grown.Sound := by
    unfold grown
    split
    · exact ht.resize _ _
    · exact ht
  exact hgrown.placeFrom start vs

end Table
end StrategyBench.Lua
