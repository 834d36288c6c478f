/-
StrategyBench.Proofs.Lua.Traversal — going through a table key by key is going through a list of entries.

Where each key is in the part that it belongs to (`Table.Sound`), the entries of a table are those of the
dense part in the order of their places, then those of the ordered part in the order of their keys, less
those whose value is nil (`entries`). A key knows which entries are still ahead (`Ahead`): the next key is
that of the first of them (`next_of_ahead`), and from that key on the rest is ahead (`Ahead.tail`).
-/

import StrategyBench.Proofs.Lua.SoundTables
import StrategyBench.Proofs.Lua.Tables

namespace StrategyBench.Lua

namespace Table

variable {t : Table} {k v : Value} {n : Nat}

/-! ## Entries -/

/-- The entries of the dense part from place `n` on. -/
def denseEntries (t : Table) (n : Nat) : Nat → List (Value × Value)
  | 0 => []
  | fuel + 1 =>
    if (t.denseAt n).isNil then denseEntries t (n + 1) fuel
    else (.int (Int64.ofNat n), t.denseAt n) :: denseEntries t (n + 1) fuel

/-- The entries of the ordered part. -/
def keyedEntries (t : Table) : List (Value × Value) := t.other.toList.filter fun e => !e.2.isNil

def entries (t : Table) : List (Value × Value) := t.denseEntries 1 t.dense.size ++ t.keyedEntries

/-- How many places both parts have together. -/
def places (t : Table) : Nat := t.dense.size + t.other.size

theorem length_denseEntries_le (t : Table) (n fuel : Nat) : (t.denseEntries n fuel).length ≤ fuel := by
  induction fuel generalizing n with
  | zero => exact Nat.le_refl 0
  | succ fuel ih =>
    have hrest := ih (n + 1)
    rw [denseEntries]
    split
    · omega
    · rw [List.length_cons]
      omega

theorem length_entries_le (t : Table) : t.entries.length ≤ t.places := by
  have hdense := t.length_denseEntries_le 1 t.dense.size
  have hkeyed : t.keyedEntries.length ≤ t.other.toList.length := List.length_filter_le _ _
  rw [Std.TreeMap.length_toList] at hkeyed
  rw [entries, List.length_append, places]
  omega

/-- The first entry of the dense part from a place on, and what comes after it. -/
theorem denseEntries_eq_cons {e : Value × Value} {rest : List (Value × Value)} {fuel : Nat}
    (h : t.denseEntries n fuel = e :: rest) :
    ∃ m, n ≤ m ∧ m < n + fuel ∧ e = (.int (Int64.ofNat m), t.denseAt m) ∧ (t.denseAt m).isNil = false ∧
      rest = t.denseEntries (m + 1) (n + fuel - (m + 1)) := by
  induction fuel generalizing n with
  | zero => cases h
  | succ fuel ih =>
    rw [denseEntries] at h
    split at h
    · obtain ⟨m, hle, hlt, he, hpresent, hrest⟩ := ih h
      refine ⟨m, by omega, by omega, he, hpresent, ?_⟩
      rw [hrest]
      congr 1
      omega
    · rename_i hpresent
      obtain ⟨rfl, rfl⟩ := List.cons.inj h
      refine ⟨n, Nat.le_refl n, by omega, rfl, by simpa using hpresent, ?_⟩
      congr 1
      omega

theorem exists_place_of_mem {e : Value × Value} {fuel : Nat} (h : e ∈ t.denseEntries n fuel) :
    ∃ m, n ≤ m ∧ m < n + fuel ∧ e = (.int (Int64.ofNat m), t.denseAt m) ∧ (t.denseAt m).isNil = false := by
  induction fuel generalizing n with
  | zero => cases h
  | succ fuel ih =>
    rw [denseEntries] at h
    split at h
    · obtain ⟨m, hle, hlt, he, hpresent⟩ := ih h
      exact ⟨m, by omega, by omega, he, hpresent⟩
    · rename_i hpresent
      rcases List.mem_cons.mp h with rfl | h
      · exact ⟨n, Nat.le_refl n, by omega, rfl, by simpa using hpresent⟩
      · obtain ⟨m, hle, hlt, he, hpresent⟩ := ih h
        exact ⟨m, by omega, by omega, he, hpresent⟩

theorem mem_denseEntries {m fuel : Nat} (hle : n ≤ m) (hlt : m < n + fuel) (hpresent : (t.denseAt m).isNil = false) :
    (.int (Int64.ofNat m), t.denseAt m) ∈ t.denseEntries n fuel := by
  induction fuel generalizing n with
  | zero => omega
  | succ fuel ih =>
    rw [denseEntries]
    rcases Nat.eq_or_lt_of_le hle with rfl | hlater
    · rw [hpresent, if_neg Bool.false_ne_true]
      exact List.mem_cons_self
    · have hrest := ih hlater (by omega)
      split
      · exact hrest
      · exact List.mem_cons_of_mem _ hrest

theorem mem_keyedEntries {e : Value × Value} : e ∈ t.keyedEntries ↔ e ∈ t.other.toList ∧ e.2.isNil = false := by
  rw [keyedEntries, List.mem_filter, Bool.not_eq_true']

theorem mem_keyedEntries_of_keyed (hk : ∀ {l}, Value.keyOrder l k = .eq → l = k)
    (hpresent : (t.keyed k).isNil = false) : (k, t.keyed k) ∈ t.keyedEntries := by
  refine mem_keyedEntries.mpr ⟨KeyMap.mem_toList_of_get? hk ?_, hpresent⟩
  rw [keyed] at hpresent ⊢
  cases hvalue : t.other.get? k with
  | none =>
    rw [hvalue] at hpresent
    cases hpresent
  | some w => rw [Option.getD_some]

/-- What an entry of a table says: its value stands under its key, and neither is nil. -/
structure HasEntry (t : Table) (k v : Value) : Prop where
  normal : k.normalKey = k
  isKey : k.isNil = false
  get : t.get k = v
  present : v.isNil = false

theorem hasEntry_of_mem (ht : t.Sound) (hsize : t.dense.size < 2 ^ 63) {e : Value × Value} (he : e ∈ t.entries) :
    t.HasEntry e.1 e.2 := by
  rcases List.mem_append.mp he with he | he
  · obtain ⟨m, hpos, hin, rfl, hpresent⟩ := exists_place_of_mem he
    obtain ⟨i, rfl⟩ := Nat.exists_eq_add_of_le' hpos
    refine ⟨rfl, rfl, ?_, hpresent⟩
    rw [get_element (by omega) (by omega), denseAt, Nat.add_sub_cancel]
  · obtain ⟨hmem, hpresent⟩ := mem_keyedEntries.mp he
    have hkey := ht e hmem
    refine ⟨hkey.isKey.normalKey, hkey.isKey.isNil, ?_, hpresent⟩
    rw [hkey.get, keyed, KeyMap.get?_of_mem_toList hmem, Option.getD_some]

/-- The entries whose keys are strings are what stands under the strings. -/
theorem mem_entries_str_iff (ht : t.Sound) (hsize : t.dense.size < 2 ^ 63) {s : ByteArray} :
    (.str s, v) ∈ t.entries ↔ t.get (.str s) = v ∧ v.isNil = false := by
  constructor
  · intro he
    have hentry := hasEntry_of_mem ht hsize he
    exact ⟨hentry.get, hentry.present⟩
  · rintro ⟨rfl, hpresent⟩
    exact List.mem_append_right _ (mem_keyedEntries_of_keyed Value.eq_of_keyOrder_str hpresent)

/-- What stands under an integer is an entry. -/
theorem mem_entries_int {i : Int64} (hpresent : (t.getInt i).isNil = false) : (.int i, t.getInt i) ∈ t.entries := by
  by_cases hin : t.inDense i = true
  · obtain ⟨hpos, hle⟩ := place_of_inDense hin
    rw [getInt, if_pos hin] at hpresent ⊢
    have hentry := mem_denseEntries hpos (Nat.lt_one_add_iff.mpr hle) hpresent
    rw [ofNat_toUInt64] at hentry
    exact List.mem_append_left _ hentry
  · rw [getInt, if_neg hin] at hpresent ⊢
    exact List.mem_append_right _ (mem_keyedEntries_of_keyed Value.eq_of_keyOrder_int hpresent)

/-- A table that has only an ordered part, and no nil in it, has those entries. -/
theorem entries_eq_toList (hdense : t.dense = #[]) (hvalues : ∀ e ∈ t.other.toList, e.2.isNil = false) :
    t.entries = t.other.toList := by
  rw [entries, hdense, keyedEntries, List.filter_eq_self.mpr fun e he => by rw [hvalues e he]; rfl]
  rfl

/-- The keys of the ordered part come in order. -/
theorem pairwise_keyedEntries (t : Table) : t.keyedEntries.Pairwise fun a b => Value.keyOrder a.1 b.1 = .lt :=
  Std.TreeMap.ordered_keys_toList.filter _

/-! ## Steps -/

theorem denseFrom_eq (t : Table) (n fuel : Nat) :
    (t.denseFrom n fuel).map (fun m => Value.int (Int64.ofNat m)) = (t.denseEntries n fuel).head?.map Prod.fst := by
  induction fuel generalizing n with
  | zero => rfl
  | succ fuel ih =>
    rw [denseFrom, denseEntries]
    split
    · exact ih (n + 1)
    · rfl

theorem keyedFrom_some_eq {before after : List (Value × Value)} (hlist : t.other.toList = before ++ (k, v) :: after)
    {fuel : Nat} (hfuel : after.length < fuel) :
    t.keyedFrom (some k) fuel = (after.filter fun e => !e.2.isNil).head?.map Prod.fst := by
  induction after generalizing before k v fuel with
  | nil =>
    obtain ⟨fuel, rfl⟩ := Nat.exists_eq_add_of_le' (Nat.one_le_of_lt hfuel)
    rw [keyedFrom]
    simp only [KeyMap.getEntryGT?_of_toList hlist]
    rfl
  | cons e after ih =>
    obtain ⟨fuel, rfl⟩ := Nat.exists_eq_add_of_le' (Nat.one_le_of_lt hfuel)
    have hnext : t.other.toList = (before ++ [(k, v)]) ++ (e.1, e.2) :: after := by simpa using hlist
    have hlater : after.length < fuel := by simpa using hfuel
    have hrest := ih hnext hlater
    rw [keyedFrom]
    simp only [KeyMap.getEntryGT?_of_toList hlist, List.head?_cons]
    cases hnil : e.2.isNil with
    | true => rw [if_pos rfl, hrest, List.filter_cons_of_neg (by simp [hnil])]
    | false =>
      rw [if_neg Bool.false_ne_true, List.filter_cons_of_pos (by simp [hnil]), List.head?_cons, Option.map_some]

theorem keyedFrom_none_eq (t : Table) :
    t.keyedFrom none (t.other.size + 1) = t.keyedEntries.head?.map Prod.fst := by
  rw [keyedFrom, KeyMap.minEntry?_eq_head?, keyedEntries]
  cases hlist : t.other.toList with
  | nil => rfl
  | cons e rest =>
    have hsize : rest.length < t.other.size := by
      rw [← Std.TreeMap.length_toList, hlist, List.length_cons]
      exact Nat.lt_succ_self _
    simp only [List.head?_cons]
    cases hnil : e.2.isNil with
    | true =>
      rw [if_pos rfl, List.filter_cons_of_neg (by simp [hnil])]
      have hwhole : t.other.toList = [] ++ (e.1, e.2) :: rest := hlist
      exact keyedFrom_some_eq hwhole hsize
    | false =>
      rw [if_neg Bool.false_ne_true, List.filter_cons_of_pos (by simp [hnil]), List.head?_cons, Option.map_some]

/-- The entries that are still to come after a key; all of them after nil. -/
inductive Ahead (t : Table) : Value → List (Value × Value) → Prop
  | start : Ahead t .nil t.entries
  | place {n : Nat} (hpos : 0 < n) (hin : n ≤ t.dense.size) :
    Ahead t (.int (Int64.ofNat n)) (t.denseEntries (n + 1) (t.dense.size - n) ++ t.keyedEntries)
  | keyed {before after : List (Value × Value)} {k v : Value} (hlist : t.other.toList = before ++ (k, v) :: after) :
    Ahead t k (after.filter fun e => !e.2.isNil)

theorem Ahead.keyed_tail (before : List (Value × Value)) {after rest : List (Value × Value)} {e : Value × Value}
    (hlist : t.other.toList = before ++ after) (hfirst : (after.filter fun e => !e.2.isNil) = e :: rest) :
    t.Ahead e.1 rest := by
  obtain ⟨skipped, later, rfl, -, -, rfl⟩ := List.filter_eq_cons_iff.mp hfirst
  have hsplit : t.other.toList = (before ++ skipped) ++ (e.1, e.2) :: later := by rw [hlist, List.append_assoc]
  exact .keyed hsplit

theorem Ahead.place_tail {rest : List (Value × Value)} {e : Value × Value} (hpos : 0 < n) (hin : n ≤ t.dense.size + 1)
    (hfirst : t.denseEntries n (t.dense.size + 1 - n) ++ t.keyedEntries = e :: rest) : t.Ahead e.1 rest := by
  cases hdense : t.denseEntries n (t.dense.size + 1 - n) with
  | nil =>
    rw [hdense, List.nil_append] at hfirst
    exact keyed_tail [] rfl hfirst
  | cons d later =>
    rw [hdense, List.cons_append] at hfirst
    obtain ⟨rfl, rfl⟩ := List.cons.inj hfirst
    obtain ⟨m, hle, hlt, rfl, -, rfl⟩ := denseEntries_eq_cons hdense
    have hfuel : n + (t.dense.size + 1 - n) - (m + 1) = t.dense.size - m := by omega
    rw [hfuel]
    exact .place (by omega) (by omega)

/-- From the first key that is ahead on, the rest is. -/
theorem Ahead.tail {rest : List (Value × Value)} {e : Value × Value} (h : t.Ahead k (e :: rest)) :
    t.Ahead e.1 rest := by
  generalize hahead : e :: rest = ahead at h
  cases h with
  | start => exact place_tail Nat.one_pos (by omega) hahead.symm
  | @place n hpos hin =>
    have hfuel : t.dense.size + 1 - (n + 1) = t.dense.size - n := by omega
    exact place_tail (Nat.succ_pos n) (by omega) (hfuel ▸ hahead.symm)
  | @keyed before after k v hlist => exact keyed_tail (before ++ [(k, v)]) (by simpa using hlist) hahead.symm

/-- From a place on, the first key is that of the first entry, nil if there is none. -/
theorem denseFrom_elim_eq (t : Table) (n : Nat) :
    (t.denseFrom n (t.dense.size + 1 - n)).elim ((t.keyedFrom none (t.other.size + 1)).getD .nil)
        (fun m => Value.int (Int64.ofNat m)) =
      ((t.denseEntries n (t.dense.size + 1 - n) ++ t.keyedEntries).head?.map Prod.fst).getD .nil := by
  have hfirst := t.denseFrom_eq n (t.dense.size + 1 - n)
  cases hdense : t.denseEntries n (t.dense.size + 1 - n) with
  | nil =>
    rw [hdense, List.head?_nil, Option.map_none, Option.map_eq_none_iff] at hfirst
    rw [hfirst, Option.elim_none, List.nil_append, t.keyedFrom_none_eq]
  | cons e rest =>
    rw [hdense, List.head?_cons, Option.map_some] at hfirst
    obtain ⟨m, hm, heq⟩ := Option.map_eq_some_iff.mp hfirst
    rw [hm, Option.elim_some, List.cons_append, List.head?_cons, Option.map_some, Option.getD_some]
    exact heq

/-- After a key of the other part, the next is that of the first entry after it. -/
theorem next_of_keyed (ht : t.Sound) {before after : List (Value × Value)}
    (hlist : t.other.toList = before ++ (k, v) :: after) :
    t.next k = some (((after.filter fun e => !e.2.isNil).head?.map Prod.fst).getD .nil) := by
  have hmem : (k, v) ∈ t.other.toList := by
    rw [hlist]
    exact List.mem_append_right _ List.mem_cons_self
  have hkey := ht _ hmem
  have hin : t.other.contains k = true := by
    rw [KeyMap.contains_eq, KeyMap.get?_of_mem_toList hmem]
    rfl
  have hlater : after.length < t.other.size + 1 := by
    rw [← Std.TreeMap.length_toList, hlist, List.length_append, List.length_cons]
    omega
  rw [← keyedFrom_some_eq hlist hlater]
  cases k with
  | nil => exact hkey.isKey.elim
  | int i =>
    unfold next
    dsimp only
    rw [hkey.apart i rfl, if_neg Bool.false_ne_true, if_pos hin]
  | float x =>
    unfold next
    dsimp only
    rw [hkey.isKey.1, if_neg Bool.false_ne_true, if_pos hin]
  | _ => exact if_pos hin

/-- The key of the first entry that is ahead, nil if there is none. -/
theorem next_of_ahead (ht : t.Sound) (hsize : t.dense.size < 2 ^ 63) {ahead : List (Value × Value)}
    (h : t.Ahead k ahead) : t.next k = some ((ahead.head?.map Prod.fst).getD .nil) := by
  cases h with
  | start =>
    unfold next
    dsimp only
    refine congrArg some (Eq.trans ?_ (t.denseFrom_elim_eq 1))
    cases t.denseFrom 1 (t.dense.size + 1 - 1) <;> rfl
  | @place n hpos hin =>
    obtain ⟨i, rfl⟩ := Nat.exists_eq_add_of_le' hpos
    have hdense : t.inDense (Int64.ofNat (i + 1)) = true := (inDense_iff (by omega)).mpr (by omega)
    have hfuel : t.dense.size + 1 - (i + 1 + 1) = t.dense.size - (i + 1) := by omega
    have hrest := t.denseFrom_elim_eq (i + 1 + 1)
    rw [hfuel] at hrest
    unfold next
    dsimp only
    rw [if_pos hdense, toNat_ofNat (by omega), hfuel]
    refine congrArg some (Eq.trans ?_ hrest)
    cases t.denseFrom (i + 1 + 1) (t.dense.size - (i + 1)) <;> rfl
  | keyed hlist => exact next_of_keyed ht hlist

/-! ## Tables that differ in a hint only -/

theorem Similar.denseEntries {u : Table} (h : t.Similar u) (n fuel : Nat) :
    u.denseEntries n fuel = t.denseEntries n fuel := by
  have hplace (n : Nat) : u.denseAt n = t.denseAt n := by rw [denseAt, denseAt, h.dense]
  induction fuel generalizing n with
  | zero => rfl
  | succ fuel ih => rw [Table.denseEntries, Table.denseEntries, hplace, ih]

theorem Similar.entries {u : Table} (h : t.Similar u) : u.entries = t.entries := by
  rw [Table.entries, Table.entries, h.denseEntries, keyedEntries, keyedEntries, h.dense, h.other]

theorem Similar.ahead {u : Table} (h : t.Similar u) {ahead : List (Value × Value)} (ha : t.Ahead k ahead) :
    u.Ahead k ahead := by
  have hkeyed : u.keyedEntries = t.keyedEntries := by rw [keyedEntries, keyedEntries, h.other]
  cases ha with
  | start => exact h.entries ▸ .start
  | @place n hpos hin =>
    rw [← hkeyed, ← h.denseEntries, ← h.dense]
    exact .place hpos (h.dense.symm ▸ hin)
  | keyed hlist => exact .keyed (h.other ▸ hlist)

end Table
end StrategyBench.Lua
