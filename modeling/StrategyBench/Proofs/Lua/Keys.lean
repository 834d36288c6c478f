/-
StrategyBench.Proofs.Lua.Keys — the order of table keys, and the keys of a table one after the other.

Keys are ordered by their types, then by what tells keys of one type apart, part by part
(`keyOrder_eq`); so the ordered part of a table is a map, and keys that are strings are told apart by
their bytes. What follows an entry of it is the next one of its list (`getEntryGT?_of_toList`).
-/

import Mathlib.Data.List.Basic
import StrategyBench.Lua.Table
import StrategyBench.Proofs.Lua.Texts

namespace StrategyBench

open Std (TransCmp OrientedCmp)

/-! ## Strings -/

namespace Bytes

theorem get!_eq (a : ByteArray) {i : Nat} (h : i < a.data.toList.length) : a.get! i = a.data.toList[i] := by
  rw [Array.getElem_toList]
  exact getElem!_pos a.data i (by simpa using h)

theorem compareFrom_eq (a b : ByteArray) (i n : Nat) (ha : a.size = i + n) (hb : b.size = i + n) :
    compareFrom a b i n = compare (a.data.toList.drop i) (b.data.toList.drop i) := by
  induction n generalizing i with
  | zero =>
    have hda : a.data.toList.drop i = [] := List.drop_of_length_le (Nat.le_of_eq ha)
    have hdb : b.data.toList.drop i = [] := List.drop_of_length_le (Nat.le_of_eq hb)
    rw [compareFrom, ha, hb, hda, hdb, Nat.compare_eq_eq.mpr rfl]
    rfl
  | succ n ih =>
    have hia : i < a.data.toList.length := Nat.lt_of_lt_of_eq (by omega) ha.symm
    have hib : i < b.data.toList.length := Nat.lt_of_lt_of_eq (by omega) hb.symm
    rw [compareFrom, ← List.getElem_cons_drop hia, ← List.getElem_cons_drop hib, List.compare_cons_cons,
      ← ih (i + 1) (by omega) (by omega), get!_eq a hia, get!_eq b hib, UInt8.compare_eq_toNat_compare_toNat]
    split
    · rename_i hlt
      rw [Nat.compare_eq_lt.mpr (UInt8.lt_iff_toNat_lt.mp hlt)]
      rfl
    · split
      · rename_i hgt
        rw [Nat.compare_eq_gt.mpr (UInt8.lt_iff_toNat_lt.mp hgt)]
        rfl
      · rename_i hge hle
        rw [UInt8.lt_iff_toNat_lt] at hge hle
        rw [Nat.compare_eq_eq.mpr (by omega)]
        rfl

/-- Shorter strings first, strings of one length byte by byte. -/
theorem shortlex_eq (a b : ByteArray) :
    shortlex a b = (compare a.size b.size).then (compare a.data.toList b.data.toList) := by
  unfold shortlex
  split
  · rename_i hlt
    rw [Nat.compare_eq_lt.mpr hlt]
    rfl
  · split
    · rename_i hgt
      rw [Nat.compare_eq_gt.mpr hgt]
      rfl
    · have hsize : a.size = b.size := by omega
      rw [compareFrom_eq a b 0 a.size (by omega) (by omega), Nat.compare_eq_eq.mpr hsize]
      rfl

theorem shortlex_eq_iff {a b : ByteArray} : shortlex a b = .eq ↔ a = b := by
  rw [shortlex_eq, Ordering.then_eq_eq, Nat.compare_eq_eq, Std.compare_eq_iff_eq, Array.toList_inj]
  constructor
  · rintro ⟨-, h⟩
    exact ByteArray.ext h
  · rintro rfl
    exact ⟨rfl, rfl⟩

end Bytes

/-! ## Keys -/

namespace Lua

namespace Native

/-- The number that tells functions of one kind apart. -/
def number : Native → Nat
  | builtin f => f.ctorIdx
  | stringArith op => op.ctorIdx
  | codesStep lax => lax.toNat
  | gmatchStep _ _ place _ => place
  | _ => 0

/-- The name that tells functions of the host apart. -/
def label : Native → String
  | host name => name
  | _ => ""

end Native

namespace Value

/-- The kind of a key within its type. -/
def keyKind : Value → Nat
  | native f => f.ctorIdx
  | failure e => e.ctorIdx
  | _ => 0

/-- The number that tells keys of one kind apart; shorter strings come first. -/
def keyNumber : Value → Int
  | bool b => b.toNat
  | int i => i.toInt
  | float x => x.orderKey
  | str s => s.size
  | table id => id
  | closure id => id
  | native f => f.number
  | _ => 0

def keyBytes : Value → List UInt8
  | str s => s.data.toList
  | _ => []

def keyLabel : Value → String
  | native f => f.label
  | failure (.refusedModule name) => name
  | failure (.message text) => text
  | _ => ""

theorem compare_natCast (m n : Nat) : compare (m : Int) (n : Int) = compare m n := by
  simp only [compare, compareOfLessAndEq, Int.ofNat_lt, Int.natCast_inj]

/-- The order of keys, part by part. -/
def orderByParts : Value → Value → Ordering :=
  compareLex (compareOn Value.ctorIdx) <| compareLex (compareOn keyKind) <| compareLex (compareOn keyNumber) <|
    compareLex (compareOn keyBytes) (compareOn keyLabel)

theorem nativeOrder_eq (f g : Native) :
    nativeOrder f g =
      (compare f.ctorIdx g.ctorIdx).then ((compare f.number g.number).then (compare f.label g.label)) := by
  cases f <;> cases g
  all_goals simp only [nativeOrder, Native.number, Native.label, Std.ReflCmp.compare_self, Ordering.then_eq]
  all_goals rfl

theorem failureOrder_eq (d e : HostError) :
    failureOrder d e =
      (compare d.ctorIdx e.ctorIdx).then (compare (keyLabel (failure d)) (keyLabel (failure e))) := by
  cases d <;> cases e <;> rfl

theorem intOrder_eq (i j : Int64) : keyOrder (int i) (int j) = compare i.toInt j.toInt := by
  simp only [keyOrder, Int64.lt_iff_toInt_lt, compare, compareOfLessAndEq]
  split
  · rfl
  · split
    · rw [if_neg (by omega)]
    · rw [if_pos (by omega)]

theorem keyOrder_eq (a b : Value) : keyOrder a b = orderByParts a b := by
  cases a <;> cases b
  case str.str s t =>
    have hparts : orderByParts (str s) (str t) =
        (compare (s.size : Int) t.size).then ((compare s.data.toList t.data.toList).then (compare "" "")) := rfl
    rw [hparts, keyOrder, Bytes.shortlex_eq, compare_natCast, Std.compare_eq_iff_eq.mpr rfl, Ordering.then_eq]
  case int.int i j =>
    rw [intOrder_eq]
    simp only [orderByParts, compareLex, compareOn, keyKind, keyNumber, keyBytes, keyLabel,
      Std.ReflCmp.compare_self, Ordering.then_eq]
    rfl
  case native.native f g =>
    rw [keyOrder, nativeOrder_eq, ← compare_natCast f.number]
    rfl
  case failure.failure d e =>
    rw [keyOrder, failureOrder_eq]
    rfl
  all_goals simp only [orderByParts, compareLex, compareOn, keyOrder, keyKind, keyNumber, keyBytes, keyLabel,
    compare_natCast, Std.ReflCmp.compare_self, Ordering.then_eq]
  all_goals rfl

instance : TransCmp keyOrder := by
  have heq : keyOrder = orderByParts := funext fun a => funext (keyOrder_eq a)
  rw [heq]
  unfold orderByParts
  infer_instance

theorem eq_of_keyOrder_str {k : Value} {s : ByteArray} (h : keyOrder k (str s) = .eq) : k = str s := by
  cases k with
  | str t => exact congrArg str (Bytes.shortlex_eq_iff.mp h)
  | _ => cases Nat.compare_eq_eq.mp h

theorem eq_of_keyOrder_int {k : Value} {i : Int64} (h : keyOrder k (int i) = .eq) : k = int i := by
  cases k with
  | int j =>
    rw [intOrder_eq] at h
    exact congrArg int (Int64.toInt_inj.mp (Std.LawfulEqCmp.compare_eq_iff_eq.mp h))
  | _ => cases Nat.compare_eq_eq.mp h

end Value

/-! ## Entries in order -/

namespace KeyMap

open Std.DTreeMap.Internal (Impl)

theorem impl_minEntry?_eq_head? (t : Impl Value fun _ => Value) : t.minEntry? = t.toListModel.head? := by
  fun_induction Impl.minEntry? t with
  | case1 => rfl
  | case2 => simp
  | case3 => simp_all

/-- The first entry of a map is that of its list. -/
theorem minEntry?_eq_head? (m : KeyMap) : m.minEntry? = m.toList.head? := by
  have hlist : m.toList = m.inner.inner.toListModel.map fun e => (e.fst, e.snd) := Impl.Const.toList_eq_toListModel_map
  have hentry : m.minEntry? = m.inner.inner.minEntry?.map fun e => (e.fst, e.snd) := by
    let _ : Ord Value := ⟨Value.keyOrder⟩
    exact Impl.Const.minEntry?_eq_minEntry?
  rw [hlist, hentry, impl_minEntry?_eq_head?, List.head?_map]

/-- The entry after a key is the first of the list whose key is greater. -/
theorem getEntryGT?_eq_find? (m : KeyMap) (k : Value) :
    m.getEntryGT? k = m.toList.find? fun e => (Value.keyOrder e.1 k).isGT := by
  let _ : Ord Value := ⟨Value.keyOrder⟩
  have hlist : m.toList = m.inner.inner.toListModel.map fun e => (e.fst, e.snd) := Impl.Const.toList_eq_toListModel_map
  have hentry : m.getEntryGT? k = (Impl.getEntryGT? k m.inner.inner).map fun e => (e.fst, e.snd) :=
    Impl.Const.getEntryGT?_eq_map
  have htrans : Std.TransOrd Value := inferInstanceAs (TransCmp Value.keyOrder)
  rw [hentry, Impl.getEntryGT?_eq_find? m.inner.wf.ordered, hlist, List.find?_map]
  rfl

theorem get?_of_mem_toList {m : KeyMap} {k v : Value} (h : (k, v) ∈ m.toList) : m.get? k = some v :=
  (Std.TreeMap.mem_toList_iff_getKey?_eq_some_and_getElem?_eq_some.mp h).2

theorem mem_toList_of_get? {m : KeyMap} {k v : Value} (hk : ∀ {l}, Value.keyOrder l k = .eq → l = k)
    (h : m.get? k = some v) : (k, v) ∈ m.toList := by
  obtain ⟨l, hl, hmem⟩ := Std.TreeMap.getElem?_eq_some_iff_exists_compare_eq_eq_and_mem_toList.mp h
  obtain rfl := hk (OrientedCmp.eq_symm hl)
  exact hmem

theorem contains_eq (m : KeyMap) (k : Value) : m.contains k = (m.get? k).isSome :=
  Std.TreeMap.contains_eq_isSome_getElem?

/-- A string stands for what was put under it last. -/
theorem get?_insert_self (m : KeyMap) (s : ByteArray) (v : Value) : (m.insert (.str s) v).get? (.str s) = some v :=
  Std.TreeMap.getElem?_insert_self

theorem get?_insert_of_ne (m : KeyMap) {s t : ByteArray} (h : t ≠ s) (v : Value) :
    (m.insert (.str s) v).get? (.str t) = m.get? (.str t) := by
  have hkey : Value.keyOrder (.str s) (.str t) ≠ .eq := by
    rw [Value.keyOrder, Ne, Bytes.shortlex_eq_iff]
    exact h.symm
  exact (Std.TreeMap.getElem?_insert).trans (if_neg hkey)

theorem mem_toList_insert {m : KeyMap} {k v : Value} {e : Value × Value} (h : e ∈ (m.insert k v).toList) :
    e = (k, v) ∨ e ∈ m.toList := by
  obtain ⟨hkey, hvalue⟩ := Std.TreeMap.mem_toList_iff_getKey?_eq_some_and_getElem?_eq_some.mp h
  rw [Std.TreeMap.getKey?_insert] at hkey
  rw [Std.TreeMap.getElem?_insert] at hvalue
  by_cases hk : Value.keyOrder k e.1 = .eq
  · rw [if_pos hk] at hkey hvalue
    exact .inl (Prod.ext (Option.some.inj hkey).symm (Option.some.inj hvalue).symm)
  · rw [if_neg hk] at hkey hvalue
    exact .inr (Std.TreeMap.mem_toList_iff_getKey?_eq_some_and_getElem?_eq_some.mpr ⟨hkey, hvalue⟩)

/-- What follows an entry of the list is the entry after its key. -/
theorem getEntryGT?_of_toList {m : KeyMap} {before after : List (Value × Value)} {k v : Value}
    (h : m.toList = before ++ (k, v) :: after) : m.getEntryGT? k = after.head? := by
  have hordered : m.toList.Pairwise fun a b => Value.keyOrder a.1 b.1 = .lt := Std.TreeMap.ordered_keys_toList
  rw [h, List.pairwise_append, List.pairwise_cons] at hordered
  obtain ⟨-, ⟨hafter, -⟩, hbefore⟩ := hordered
  have hskip : ∀ e ∈ before ++ [(k, v)], ¬(Value.keyOrder e.1 k).isGT = true := by
    intro e he
    rcases List.mem_append.mp he with he | he
    · rw [hbefore e he (k, v) List.mem_cons_self]
      decide
    · obtain rfl := List.mem_singleton.mp he
      rw [(Std.ReflCmp.compare_self : Value.keyOrder k k = .eq)]
      decide
  rw [getEntryGT?_eq_find?, h, ← List.singleton_append, ← List.append_assoc, List.find?_append,
    List.find?_eq_none.mpr hskip, Option.none_or]
  cases after with
  | nil => rfl
  | cons e after =>
    have hgt : Value.keyOrder e.1 k = .gt := OrientedCmp.gt_of_lt (hafter e List.mem_cons_self)
    rw [List.find?_cons_of_pos (by rw [hgt]; rfl), List.head?_cons]

end KeyMap

end Lua

end StrategyBench
