/-
StrategyBench.Proofs.Lua.Tables — tables that are made for arrays and for objects.

A table that is made for `n` elements has room for them in its dense part, one that is made for members
has room in its ordered part, so neither is ever sized anew while it is filled (`set_element`,
`set_member`). A table without integer keys has border zero (`border_of_no_integers`), one with a value in its
first place never has (`border_of_first`).
-/

import Mathlib.Algebra.Group.Nat.Even
import StrategyBench.Proofs.Lua.Keys
import StrategyBench.Proofs.Lua.Allocation

namespace StrategyBench.Lua

/-! ## Places as integers -/

theorem toNat_ofNat {n : Nat} (h : n < 2 ^ 63) : (Int64.ofNat n).toUInt64.toNat = n := by
  rw [Int64.toUInt64_ofNat', UInt64.toNat_ofNat', Nat.mod_eq_of_lt (by omega)]

theorem ofNat_pos {n : Nat} (hpos : 0 < n) (h : n < 2 ^ 63) : 0 < Int64.ofNat n := by
  rw [Int64.lt_iff_toInt_lt, Int64.toInt_ofNat_of_lt h, Int64.toInt_zero]
  omega

theorem ofNat_toUInt64 (i : Int64) : Int64.ofNat i.toUInt64.toNat = i := by
  have hbits : UInt64.toInt64 (UInt64.ofNat i.toUInt64.toNat) = i := congrArg UInt64.toInt64 UInt64.ofNat_toNat
  exact hbits

theorem ofNat_add_one (n : Nat) : Int64.ofNat n + 1 = Int64.ofNat (n + 1) := (Int64.ofNat_add n 1).symm

namespace Table

/-! ## New tables -/

theorem le_powerFrom {p n fuel : Nat} (h : n ≤ p * 2 ^ fuel) : n ≤ powerFrom p n fuel := by
  induction fuel generalizing p with
  | zero => simpa [powerFrom] using h
  | succ fuel ih =>
    rw [powerFrom]
    split
    · assumption
    · rw [Nat.pow_succ, ← Nat.mul_assoc, Nat.mul_comm _ 2, ← Nat.mul_assoc] at h
      exact ih h

theorem le_roomFor {keys : Nat} (h : keys ≤ 2 ^ 64) : keys ≤ roomFor keys := by
  unfold roomFor
  split
  · omega
  · exact le_powerFrom (by omega)

/-- A new table has places for its elements, and room for its members. -/
theorem resize_default (dense keyed : Nat) :
    (default : Table).resize dense keyed =
      { dense := Array.replicate dense .nil, limit := dense, capacity := roomFor keyed } := by
  have hempty : (default : Table) = {} := rfl
  have hdense : ({} : Table).dense.extract 0 dense ++
      Array.replicate (dense - (({} : Table).dense.extract 0 dense).size) .nil = Array.replicate dense .nil := by simp
  have hleaving : ({} : Table).dense.extract dense = #[] := by simp
  have hother : ({} : Table).other.toList = [] := rfl
  rw [hempty, resize, hleaving]
  simp only [hdense, Std.TreeMap.foldl_eq_foldl_toList, hother]
  rfl

/-! ## Elements -/

variable {t : Table} {n : Nat}

theorem inDense_iff {i : Nat} (hi : i + 1 < 2 ^ 63) : t.inDense (Int64.ofNat (i + 1)) = true ↔ i < t.dense.size := by
  rw [inDense, toNat_ofNat hi, Bool.and_eq_true, decide_eq_true_iff, decide_eq_true_iff]
  exact ⟨fun h => h.2, fun h => ⟨ofNat_pos (Nat.succ_pos i) hi, h⟩⟩

theorem place_of_inDense {i : Int64} (h : t.inDense i = true) :
    1 ≤ i.toUInt64.toNat ∧ i.toUInt64.toNat ≤ t.dense.size := by
  rw [inDense, Bool.and_eq_true, decide_eq_true_iff, decide_eq_true_iff] at h
  refine ⟨Nat.one_le_iff_ne_zero.mpr fun hzero => ?_, h.2⟩
  have hi : i = 0 := by rw [← ofNat_toUInt64 i, hzero]; rfl
  exact absurd (hi ▸ h.1) (by decide)

theorem get_element {i : Nat} (hi : i + 1 < 2 ^ 63) (hin : i < t.dense.size) :
    t.get (.int (Int64.ofNat (i + 1))) = t.dense.getD i .nil := by
  rw [get, getInt, if_pos ((inDense_iff hi).mpr hin), denseAt, toNat_ofNat hi, Nat.add_sub_cancel]

theorem get_past {i : Nat} (hi : i + 1 < 2 ^ 63) (hpast : t.dense.size ≤ i) :
    t.get (.int (Int64.ofNat (i + 1))) = t.keyed (.int (Int64.ofNat (i + 1))) := by
  rw [get, getInt, if_neg fun hin => absurd ((inDense_iff hi).mp hin) (by omega)]

/-- An element of the dense part is put in its place. -/
theorem set_element {i : Nat} (hi : i + 1 < 2 ^ 63) (hin : i < t.dense.size) (hlimit : t.limit = t.dense.size)
    (v : Value) :
    t.set (.int (Int64.ofNat (i + 1))) v = { t with dense := t.dense.setIfInBounds i v } := by
  have htouch : t.touch (.int (Int64.ofNat (i + 1))) = t := by rw [touch, if_pos hlimit]
  rw [set, htouch, if_pos ((inDense_iff hi).mpr hin), toNat_ofNat hi, Nat.add_sub_cancel, putAt]

/-! ## Members -/

theorem set_member (hlimit : t.limit = t.dense.size) {s : ByteArray} {v : Value} (hv : v.isNil = false)
    (hnew : t.other.contains (.str s) = false) (hroom : t.other.size < t.capacity) :
    t.set (.str s) v = { t with other := t.other.insert (.str s) v } := by
  have htouch : t.touch (.str s) = t := by
    unfold touch
    rw [if_pos hlimit]
  have hset : t.set (.str s) v = set.insertKey t (.str s) v := by
    unfold set
    rw [htouch]
  rw [hset, set.insertKey, hnew, if_neg Bool.false_ne_true, hv, if_neg Bool.false_ne_true, if_pos hroom]

/-! ## Borders -/

theorem searchBorder_of_none {present : Nat → Bool} (h : ∀ n, present n = false) (i j fuel : Nat) :
    searchBorder present i j fuel = i := by
  induction fuel generalizing j with
  | zero => rfl
  | succ fuel ih =>
    rw [searchBorder]
    split
    · rfl
    · dsimp only
      rw [h, if_neg Bool.false_ne_true, ih]

/-- A table without a dense part whose keys are strings has no integer key. -/
theorem getInt_of_no_integers (hdense : t.dense = #[]) (hkeys : ∀ e ∈ t.other.toList, ∃ s, e.1 = .str s)
    (i : Int64) : t.getInt i = .nil := by
  have hget : t.other.get? (.int i) = none := by
    cases hvalue : t.other.get? (.int i) with
    | none => rfl
    | some v =>
      obtain ⟨k, hk, hmem⟩ := Std.TreeMap.getElem?_eq_some_iff_exists_compare_eq_eq_and_mem_toList.mp hvalue
      obtain ⟨s, rfl⟩ := hkeys _ hmem
      cases Nat.compare_eq_eq.mp hk
  have hout : ¬t.inDense i = true := by
    intro hin
    have hplace := place_of_inDense hin
    rw [hdense, List.size_toArray, List.length_nil] at hplace
    omega
  rw [getInt, if_neg hout, keyed, hget, Option.getD_none]

/-- Where there is no integer key, wherever a border was last seen, it is zero. -/
theorem border_of_no_integers (h : ∀ i, t.getInt i = .nil) : t.border.1 = 0 := by
  have hnone : ∀ n : Nat, (!(t.getInt (Int64.ofNat n)).isNil) = false := fun n => by rw [h]; rfl
  unfold border
  dsimp only
  simp only [hnone, Bool.not_false, Bool.and_true, Bool.and_false, if_false, Bool.false_eq_true, decide_eq_true_iff]
  rcases Nat.eq_zero_or_pos t.limit with hlimit | hlimit
  · rw [if_neg (by omega), hlimit]
    by_cases hsize : t.dense.size = 0
    · rw [if_neg (by omega), if_neg (by omega), Bool.or_true, if_pos rfl, hsize]
    · rw [if_pos (Ne.symm hsize)]
  · rw [if_pos hlimit, searchBorder_of_none fun _ => rfl]

theorem searchBorder_bounds (present : Nat → Bool) (i j fuel : Nat) :
    i ≤ searchBorder present i j fuel ∧ searchBorder present i j fuel ≤ max i j := by
  induction fuel generalizing i j with
  | zero => exact ⟨Nat.le_refl i, Nat.le_max_left i j⟩
  | succ fuel ih =>
    rw [searchBorder]
    split
    · exact ⟨Nat.le_refl i, Nat.le_max_left i j⟩
    · dsimp only
      split
      · have hrest := ih ((i + j) / 2) j
        omega
      · have hrest := ih i ((i + j) / 2)
        omega

/-- Where one is there, the border before a number that is not is none of zero. -/
theorem searchBorder_pos {present : Nat → Bool} (hone : present 1 = true) (fuel : Nat) {j : Nat}
    (hj : present j = false) (hpos : 0 < j) (hfuel : j ≤ 2 ^ fuel) : 0 < searchBorder present 0 j fuel := by
  have hne {j : Nat} (hj : present j = false) : j ≠ 1 := by
    rintro rfl
    rw [hone] at hj
    cases hj
  induction fuel generalizing j with
  | zero => exact absurd (by omega) (hne hj)
  | succ fuel ih =>
    have hmany := hne hj
    rw [searchBorder, if_neg (by omega)]
    dsimp only
    split
    · have hbounds := (searchBorder_bounds present ((0 + j) / 2) j fuel).1
      omega
    · rename_i hhalf
      rw [Nat.pow_succ] at hfuel
      exact ih (by simpa using hhalf) (by omega) (by omega)

theorem doubleBorder_bounds (present : Nat → Bool) {i : Nat} (hpos : 0 < i) (hi : i ≤ greatestInt) (fuel : Nat) :
    0 < doubleBorder present i fuel ∧ doubleBorder present i fuel ≤ greatestInt := by
  have hgreatest : greatestInt = 2 ^ 63 - 1 := by decide
  induction fuel generalizing i with
  | zero => exact ⟨hpos, hi⟩
  | succ fuel ih =>
    have hdoubled : 0 < (if i ≤ greatestInt / 2 then 2 * i else greatestInt) ∧
        (if i ≤ greatestInt / 2 then 2 * i else greatestInt) ≤ greatestInt := by split <;> omega
    rw [doubleBorder]
    generalize (if i ≤ greatestInt / 2 then 2 * i else greatestInt) = j at hdoubled
    split
    · split
      · exact hdoubled
      · exact ih hdoubled.1 hdoubled.2
    · have hbounds := searchBorder_bounds present i j 64
      omega

/-- Where the first place of the dense part holds a value, wherever a border was last seen, it is not zero. -/
theorem border_of_first (hsize : t.dense.size < 2 ^ 62) (hlimit : t.limit ≤ t.dense.size) (hdense : 0 < t.dense.size)
    (hfirst : (t.getInt 1).isNil = false) : 0 < t.border.1 ∧ t.border.1 < 2 ^ 63 := by
  have hgreatest : greatestInt = 2 ^ 63 - 1 := by decide
  have hone : (fun n : Nat => !(t.getInt (Int64.ofNat n)).isNil) 1 = true := by
    show (!(t.getInt 1).isNil) = true
    rw [hfirst]
    rfl
  unfold border
  generalize (fun n : Nat => !(t.getInt (Int64.ofNat n)).isNil) = present at hone ⊢
  dsimp only
  split
  · rename_i hseen
    rw [Bool.and_eq_true, decide_eq_true_iff, Bool.not_eq_true'] at hseen
    split
    · rename_i hbefore
      rw [Bool.and_eq_true, decide_eq_true_iff] at hbefore
      omega
    · have hpos := searchBorder_pos hone 64 hseen.2 hseen.1 (by omega)
      have hbounds := (searchBorder_bounds present 0 t.limit 64).2
      omega
  · split
    · rename_i hnext
      rw [Bool.and_eq_true, decide_eq_true_iff, Bool.not_eq_true'] at hnext
      have hpos : t.limit ≠ 0 := by
        intro hzero
        rw [hzero, hone] at hnext
        cases hnext.2
      omega
    · split
      · rename_i hlast
        rw [Bool.and_eq_true, decide_eq_true_iff, Bool.not_eq_true'] at hlast
        have hbounds := searchBorder_bounds present t.limit t.dense.size 64
        rcases Nat.eq_zero_or_pos t.limit with hzero | hpos
        · have hpos := searchBorder_pos hone 64 hlast.2 hdense (by omega)
          rw [hzero] at hbounds ⊢
          omega
        · omega
      · split
        · omega
        · have hbounds := doubleBorder_bounds present hdense (by omega) 70
          rw [if_neg (Nat.ne_of_gt hdense)]
          omega

end Table
end StrategyBench.Lua
