/-
StrategyBench.Proofs.Store.Rows — what is under which key, and rows that are under their own keys.

Where each row is under its own key (`KeyedBy`), the map is no more than its rows: the row under a key
is the one row with that key (`KeyedBy.get?_eq_some_iff`), a change of the row under a key changes the
rows with that key (`KeyedBy.modify_eq_map`), and maps with the same rows are the same (`KeyedBy.ext`).
Every change that leaves the keys of the rows as they are keeps it so.
-/

import Mathlib.Data.List.Nodup
import Mathlib.Data.List.Sort
import StrategyBench.Store.Rows

namespace StrategyBench.Rows

variable {α β γ : Type} {m m' : Rows α} {k : Int} {a : α}

/-! ## Entries -/

theorem mem_values : a ∈ m.values ↔ ∃ k, (k, a) ∈ m.entries := by
  simp [values]

/-- The row under a key is told by its entry, for there is one entry of a key. -/
theorem get?_eq_some_iff : m.get? k = some a ↔ (k, a) ∈ m.entries := by
  rw [get?, Option.map_eq_some_iff]
  constructor
  · rintro ⟨⟨k', a'⟩, hfound, rfl⟩
    obtain rfl : k' = k := by simpa using List.find?_some hfound
    exact List.mem_of_find?_eq_some hfound
  · intro hmem
    cases hfound : m.entries.find? (·.1 = k) with
    | none => simpa using List.find?_eq_none.mp hfound _ hmem
    | some e =>
      have hkey : e.1 = k := by simpa using List.find?_some hfound
      have hone : e = (k, a) := List.inj_on_of_nodup_map (m.ordered.imp Int.ne_of_lt)
        (List.mem_of_find?_eq_some hfound) hmem hkey
      exact ⟨e, rfl, congrArg Prod.snd hone⟩

theorem entries_insert : (m.insert k a).entries =
    m.entries.filter (·.1 < k) ++ (k, a) :: m.entries.filter (k < ·.1) := rfl

theorem mem_values_of_get? (h : m.get? k = some a) : a ∈ m.values :=
  mem_values.mpr ⟨k, get?_eq_some_iff.mp h⟩

@[simp] theorem values_empty : (∅ : Rows α).values = [] := rfl

@[simp] theorem values_map (f : α → β) : (m.map f).values = m.values.map f := by
  simp [values, map, mapEntries]

@[simp] theorem values_filter (p : α → Bool) : (m.filter p).values = m.values.filter p := by
  simp only [values, filter, List.filter_map]
  rfl

theorem map_map (f : α → β) (g : β → γ) : (m.map f).map g = m.map (g ∘ f) := by
  ext1
  simp [map, mapEntries]

theorem map_congr {f g : α → β} (h : ∀ a ∈ m.values, f a = g a) : m.map f = m.map g := by
  ext1
  exact List.map_congr_left fun e he => congrArg (e.1, ·) (h e.2 (List.mem_map_of_mem he))

theorem filter_map {f : α → α} {p : α → Bool} (hp : ∀ a, p (f a) = p a) :
    (m.map f).filter p = (m.filter p).map f := by
  ext1
  simp only [filter, map, mapEntries, List.filter_map]
  congr 2
  funext e
  exact hp e.2

theorem map_insert (f : α → β) : (m.insert k a).map f = (m.map f).insert k (f a) := by
  ext1
  simp only [insert, map, mapEntries, List.map_append, List.map_cons, List.filter_map]
  rfl

theorem filter_insert {p : α → Bool} (hp : p a = true) : (m.insert k a).filter p = (m.filter p).insert k a := by
  ext1
  simp only [insert, filter, List.filter_append, List.filter_cons, hp, if_true, List.filter_filter, Bool.and_comm]

/-! ## Rows under their own keys -/

/-- Each row is under its own key. -/
def KeyedBy (m : Rows α) (key : α → Int) : Prop := ∀ e ∈ m.entries, key e.2 = e.1

namespace KeyedBy

variable {key : α → Int}

theorem empty : (∅ : Rows α).KeyedBy key := by
  intro e he
  cases he

theorem map_key (h : m.KeyedBy key) : m.values.map key = m.entries.map Prod.fst := by
  rw [values, List.map_map]
  exact List.map_congr_left h

/-- Rows stand in the order of their keys. -/
theorem pairwise (h : m.KeyedBy key) : (m.values.map key).Pairwise (· < ·) := by
  rw [h.map_key]
  exact m.ordered

/-- The row under a key is the row with that key. -/
theorem get?_eq_some_iff (h : m.KeyedBy key) : m.get? k = some a ↔ a ∈ m.values ∧ key a = k := by
  rw [Rows.get?_eq_some_iff, mem_values]
  constructor
  · intro hmem
    exact ⟨⟨k, hmem⟩, h _ hmem⟩
  · rintro ⟨⟨k', hmem⟩, hkey⟩
    obtain rfl : key a = k' := h _ hmem
    rwa [← hkey]

/-- Two rows with one key are the same. -/
theorem eq_of_key_eq (h : m.KeyedBy key) {b : α} (ha : a ∈ m.values) (hb : b ∈ m.values) (hk : key a = key b) :
    a = b := by
  have hfound : m.get? (key b) = some a := h.get?_eq_some_iff.mpr ⟨ha, hk⟩
  exact Option.some.inj (hfound.symm.trans (h.get?_eq_some_iff.mpr ⟨hb, rfl⟩))

theorem get?_eq_none_iff (h : m.KeyedBy key) : m.get? k = none ↔ ¬∃ a ∈ m.values, key a = k := by
  rw [Option.eq_none_iff_forall_ne_some, not_exists]
  exact forall_congr' fun a => not_congr h.get?_eq_some_iff

/-- A change of the row under a key is a change of the rows with that key. -/
theorem modify_eq_map (h : m.KeyedBy key) (k : Int) (f : α → α) :
    m.modify k f = m.map fun a => if key a = k then f a else a := by
  ext1
  refine List.map_congr_left fun e he => ?_
  simp only [h e he]

theorem map (h : m.KeyedBy key) {f : α → α} (hf : ∀ a, key (f a) = key a) : (m.map f).KeyedBy key := by
  intro e' he'
  obtain ⟨e, he, rfl⟩ := List.mem_map.mp he'
  exact (hf e.2).trans (h e he)

theorem filter (h : m.KeyedBy key) (p : α → Bool) : (m.filter p).KeyedBy key :=
  fun e he => h e (List.mem_filter.mp he).1

theorem insert (h : m.KeyedBy key) (a : α) : (m.insert (key a) a).KeyedBy key := by
  intro e he
  rcases List.mem_append.mp he with he | he
  · exact h e (List.mem_filter.mp he).1
  · rcases List.mem_cons.mp he with rfl | he
    · rfl
    · exact h e (List.mem_filter.mp he).1

/-- A row whose key is above those there are goes behind them, and takes the place of none. -/
theorem values_insert (h : m.KeyedBy key) (habove : ∀ b ∈ m.values, key b < key a) :
    (m.insert (key a) a).values = m.values ++ [a] := by
  have hbefore : ∀ e ∈ m.entries, e.1 < key a := fun e he => by
    rw [← h e he]
    exact habove e.2 (List.mem_map_of_mem he)
  have hall : m.entries.filter (·.1 < key a) = m.entries :=
    List.filter_eq_self.mpr fun e he => decide_eq_true (hbefore e he)
  have hnone : m.entries.filter (key a < ·.1) = [] :=
    List.filter_eq_nil_iff.mpr fun e he => by simpa using Int.le_of_lt (hbefore e he)
  rw [values, entries_insert, hall, hnone, List.map_append]
  rfl

/-- Rows under their own keys are told by which rows there are. -/
theorem ext (h : m.KeyedBy key) (h' : m'.KeyedBy key) (hmem : ∀ a, a ∈ m.values ↔ a ∈ m'.values) : m = m' := by
  -- an entry is there if its row is what is found under its key
  have hentries : ∀ e, e ∈ m.entries ↔ e ∈ m'.entries := by
    rintro ⟨k, a⟩
    rw [← Rows.get?_eq_some_iff, ← Rows.get?_eq_some_iff, h.get?_eq_some_iff, h'.get?_eq_some_iff, hmem]
  have hirrefl : Std.Irrefl fun e e' : Int × α => e.1 < e'.1 := ⟨fun e => Int.lt_irrefl e.1⟩
  have hantisymm : Std.Antisymm fun e e' : Int × α => e.1 < e'.1 := ⟨fun e e' h h' => absurd h' (Int.lt_asymm h)⟩
  ext1
  exact (List.pairwise_map.mp m.ordered).eq_of_mem_iff (List.pairwise_map.mp m'.ordered) hentries

end KeyedBy
end StrategyBench.Rows
