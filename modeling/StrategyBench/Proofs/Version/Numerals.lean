/-
StrategyBench.Proofs.Version.Numerals — numbers in decimal, with zeros before them.

A number is read from its numerals (`numberOf_numeral`), and digits are always the numeral of what is
read from them (`exists_numeral`), so that with its length given a numeral is told by its number
(`numeral_inj_of_length`).
-/

import Mathlib.Algebra.Ring.Nat
import StrategyBench.Version.Code

namespace StrategyBench.VersionCode

variable {c : Char} {cs ds : List Char} {n zeros width : Nat}

/-- A number in decimal, with zeros before it. -/
def numeral (zeros n : Nat) : List Char := List.replicate zeros '0' ++ Nat.toDigits 10 n

/-! ## Digits of numbers -/

theorem isDigit_of_mem_numeral (h : c ∈ numeral zeros n) : c.isDigit = true := by
  rcases List.mem_append.mp h with hzero | hdigit
  · rw [List.eq_of_mem_replicate hzero]
    rfl
  · exact Nat.isDigit_of_mem_toDigits (by decide) (by decide) hdigit

/-- Neither a point nor a sign is among digits. -/
theorem not_mem_of_digits (h : ∀ d ∈ ds, d.isDigit = true) (hc : c.isDigit = false) : c ∉ ds := by
  intro hmem
  rw [h c hmem] at hc
  cases hc

theorem numeral_ne_nil (zeros n : Nat) : numeral zeros n ≠ [] :=
  List.append_ne_nil_of_right_ne_nil _ Nat.toDigits_ne_nil

theorem length_numeral (zeros n : Nat) : (numeral zeros n).length = zeros + (Nat.toDigits 10 n).length := by
  rw [numeral, List.length_append, List.length_replicate]

/-- A digit is what is written for its value. -/
theorem digitChar_of_isDigit (h : c.isDigit = true) : Nat.digitChar (c.toNat - 48) = c ∧ c.toNat - 48 < 10 := by
  have hrange : 48 ≤ c.toNat ∧ c.toNat ≤ 57 := Char.isDigit_iff_toNat.mp h
  have hlt : c.toNat - 48 < 10 := by omega
  refine ⟨Char.toNat_inj.mp ?_, hlt⟩
  rw [Nat.toNat_digitChar_of_lt_ten hlt]
  omega

/-- A number that is not zero does not begin with one. -/
theorem head?_toDigits_ne_zero (hn : n ≠ 0) : (Nat.toDigits 10 n).head? ≠ some '0' := by
  induction n using Nat.strongRecOn with
  | ind n ih =>
    by_cases hlt : n < 10
    · rw [Nat.toDigits_of_lt_base hlt, List.head?_cons, ne_eq, Option.some.injEq, Nat.digitChar_eq_zero]
      exact hn
    · have hfirst : (Nat.toDigits 10 (n / 10)).head?.isSome = true := by simp [Nat.toDigits_ne_nil]
      rw [Nat.toDigits_of_base_le (by decide) (by omega), List.head?_append, Option.or_of_isSome hfirst]
      exact ih (n / 10) (by omega) (by omega)

/-! ## Reading a number -/

theorem numberOf_eq (ds : List Char) : numberOf ds = Nat.ofDigitChars 10 ds 0 := by
  have hstep : (fun (n : Nat) (c : Char) => n * 10 + (c.toNat - 48)) =
      fun n c => 10 * n + (c.toNat - '0'.toNat) := by
    funext n c
    rw [Nat.mul_comm]
    rfl
  rw [numberOf, hstep, Nat.ofDigitChars_eq_foldl]

@[simp] theorem numberOf_numeral (zeros n : Nat) : numberOf (numeral zeros n) = n := by
  rw [numberOf_eq, numeral, Nat.ofDigitChars_append, Nat.ofDigitChars_replicate_zero, Nat.mul_zero,
    Nat.ofDigitChars_ten_toDigits]

/-- Digits behind those of a number are those of the number that is read on from it. -/
theorem toDigits_append_digits (hn : 0 < n) (h : ∀ c ∈ ds, c.isDigit = true) :
    Nat.toDigits 10 n ++ ds = Nat.toDigits 10 (Nat.ofDigitChars 10 ds n) := by
  induction ds generalizing n with
  | nil => rw [List.append_nil, Nat.ofDigitChars_nil]
  | cons d ds ih =>
    obtain ⟨hchar, hlt⟩ := digitChar_of_isDigit (h d List.mem_cons_self)
    have hone : Nat.toDigits 10 n ++ [d] = Nat.toDigits 10 (10 * n + (d.toNat - 48)) := by
      rw [← Nat.toDigits_append_toDigits (by decide) hn hlt, Nat.toDigits_of_lt_base hlt, hchar]
    calc Nat.toDigits 10 n ++ d :: ds = (Nat.toDigits 10 n ++ [d]) ++ ds := by simp
      _ = Nat.toDigits 10 (Nat.ofDigitChars 10 ds (10 * n + (d.toNat - 48))) := by
        rw [hone, ih (by omega) fun c hc => h c (List.mem_cons_of_mem d hc)]
      _ = Nat.toDigits 10 (Nat.ofDigitChars 10 (d :: ds) n) := by rw [Nat.ofDigitChars_cons]; rfl

/-- Digits are a numeral of the number that is read from them. -/
theorem exists_numeral (hne : ds ≠ []) (h : ∀ c ∈ ds, c.isDigit = true) :
    ∃ zeros, ds = numeral zeros (numberOf ds) := by
  induction ds with
  | nil => exact absurd rfl hne
  | cons d ds ih =>
    obtain ⟨hchar, hlt⟩ := digitChar_of_isDigit (h d List.mem_cons_self)
    have hrest : ∀ c ∈ ds, c.isDigit = true := fun c hc => h c (List.mem_cons_of_mem d hc)
    by_cases hzero : d = '0'
    · subst hzero
      by_cases hnil : ds = []
      · subst hnil
        exact ⟨0, rfl⟩
      · obtain ⟨zeros, hds⟩ := ih hnil hrest
        have hnumber : numberOf ('0' :: ds) = numberOf ds := rfl
        refine ⟨zeros + 1, ?_⟩
        rw [hnumber, numeral, List.replicate_succ, List.cons_append]
        exact congrArg _ hds
    · have hpos : 0 < d.toNat - 48 := by
        refine Nat.pos_of_ne_zero fun heq => hzero ?_
        rw [← hchar, heq]
        rfl
      refine ⟨0, ?_⟩
      rw [numberOf_eq, Nat.ofDigitChars_cons]
      show d :: ds = Nat.toDigits 10 (Nat.ofDigitChars 10 ds (10 * 0 + (d.toNat - 48)))
      rw [Nat.mul_zero, Nat.zero_add, ← toDigits_append_digits hpos hrest, Nat.toDigits_of_lt_base hlt, hchar]
      rfl

/-! ## Widths -/

theorem numeral_inj_of_length {zeros' : Nat} (h : (numeral zeros n).length = (numeral zeros' n).length) :
    numeral zeros n = numeral zeros' n := by
  rw [length_numeral, length_numeral] at h
  rw [Nat.add_right_cancel h]

/-- A number that has at most so many digits, with as many zeros as make up the width. -/
def padded (width n : Nat) : List Char := numeral (width - (Nat.toDigits 10 n).length) n

theorem toList_padLeft (width n : Nat) : (Decimal.padLeft width '0' (toString n)).toList = padded width n := by
  rw [Decimal.padLeft, String.toList_append, String.toList_ofList, Nat.toString_eq_repr, Nat.toList_repr,
    ← String.length_toList, Nat.toList_repr]
  rfl

theorem le_length_padded (width n : Nat) : width ≤ (padded width n).length := by
  rw [padded, length_numeral]
  omega

theorem length_padded (hwidth : 0 < width) (hn : n < 10 ^ width) : (padded width n).length = width := by
  have hdigits := (Nat.length_toDigits_le_iff (b := 10) (by decide) hwidth).mpr hn
  rw [padded, length_numeral]
  omega

theorem numeral_eq_padded (h : (numeral zeros n).length = width) : numeral zeros n = padded width n := by
  refine numeral_inj_of_length ?_
  rw [h, length_numeral]
  rw [length_numeral] at h
  omega

end StrategyBench.VersionCode
