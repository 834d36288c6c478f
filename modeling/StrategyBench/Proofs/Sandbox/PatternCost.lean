/-
StrategyBench.Proofs.Sandbox.PatternCost — what the estimate of a match says of its tests.

The scan counts no fewer repeating and optional items than the pattern is read into
(`covers_quantifiers`), and the estimate is not below the product that it stands for, though its
arithmetic rounds and overflows (`estimate_atLeast`). But that product leaves out that each item makes tests
of its own. So a match that is let through makes at most the greatest number of steps for each byte of
its pattern (`letThrough_tests_le`), and can make more than that number in all
(`letThrough_exceeds_maxSteps`). The patterns are those whose counts fit the exponent of a power, that
is, of less than 2 GiB.
-/

import StrategyBench.Proofs.Sandbox.PatternScan
import StrategyBench.Proofs.Number.Arithmetic

namespace StrategyBench.Sandbox.PatternCost

open StrategyBench.Lua StrategyBench.Lua.Pattern

/-! ## Counting -/

def Quantifiers.total (q : Quantifiers) : Nat := q.repeats + q.optionals

theorem total_repeated (q : Quantifiers) : q.repeated.total = q.total + 1 := Nat.add_right_comm ..

theorem total_optional (q : Quantifiers) : q.optional.total = q.total + 1 := (Nat.add_assoc ..).symm

/-- Each byte adds to one of the two at most. -/
theorem total_countFrom_le (first : Bool) (q : Quantifiers) (n : Nat) (cs : List UInt8) :
    (countFrom first q n cs).total ≤ q.total + n := by
  fun_induction countFrom first q n cs with
  | case1 => exact Nat.le_refl _
  | case2 => exact Nat.le_add_right _ _
  | case3 first q n rest ih | case7 first q n c rest _ _ _ _ _ ih =>
    rw [total_repeated] at ih
    omega
  | case8 first q n rest _ _ _ _ _ ih =>
    rw [total_optional] at ih
    omega
  | case4 first q n c rest _ ih =>
    have hq : (if isDigit c = true then q.repeated else q).total ≤ q.total + 1 := by
      split
      · exact Nat.le_of_eq (total_repeated q)
      · exact Nat.le_succ _
    omega
  | case5 | case6 | case9 => omega

/-! ## The estimate -/

section Estimate

open StrategyBench.Double

variable {x y : Double} {a b k : Nat}

/-- Squaring repeatedly, no product on the way is less than its exact value. -/
theorem powerOnto_atLeast (fuel : Nat) (hx : AtLeast a x) (hy : AtLeast b y) (ha : 0 < a) (hb : 0 < b)
    (hk : k < 2 ^ fuel) : AtLeast (a * b ^ k) (powerOnto x y k fuel) := by
  induction fuel generalizing a b x y k with
  | zero =>
    obtain rfl : k = 0 := by simpa using hk
    simpa [powerOnto] using hx
  | succ fuel ih =>
    have hstep : AtLeast (a * b ^ (k % 2)) (if k % 2 = 1 then x.mul y else x) := by
      split
      · rename_i hodd
        simpa [hodd] using hx.mul hy ha hb
      · rename_i heven
        have heven : k % 2 = 0 := by omega
        simpa [heven] using hx
    have hexact : a * b ^ k = a * b ^ (k % 2) * (b * b) ^ (k / 2) := by
      rw [← Nat.pow_two, ← Nat.pow_mul, Nat.mul_assoc, ← Nat.pow_add, Nat.mod_add_div]
    simp only [powerOnto]
    split
    · rename_i hlast
      rwa [hexact, hlast, Nat.pow_zero, Nat.mul_one]
    · rw [hexact]
      exact ih hstep (hy.mul hy hb hb) (Nat.mul_pos ha (Nat.pow_pos hb)) (Nat.mul_pos hb hb)
        (by rw [Nat.pow_succ] at hk; omega)

/-- A count of less than 32 bits is the exponent that it stands for. -/
theorem exponent_of_lt (hk : k < 2 ^ 31) : exponent k = k := Int32.toInt_ofNat_of_lt hk

theorem power_atLeast (hy : AtLeast b y) (hb : 0 < b) (hk : k < 2 ^ 31) : AtLeast (b ^ k) (power y (exponent k)) := by
  have h := powerOnto_atLeast 32 (atLeast_ofNat Nat.one_pos) hy Nat.one_pos hb (Nat.lt_trans hk (by decide))
  have hsign : ¬((k : Int) < 0) := Int.not_lt.mpr (Int.natCast_nonneg k)
  rwa [power, exponent_of_lt hk, Int.natAbs_natCast, if_neg hsign, ← Nat.one_mul (b ^ k)]

theorem base_atLeast (n : Nat) : AtLeast (n + 1) ((ofNat n).add (ofNat 1)) := by
  rcases Nat.eq_zero_or_pos n with rfl | hn
  · have hone : (ofNat 0).add (ofNat 1) = ofNat 1 := by decide +kernel
    rw [hone]
    exact atLeast_ofNat Nat.one_pos
  · exact (atLeast_ofNat hn).add (atLeast_ofNat Nat.one_pos) (Nat.succ_pos n)

/-- The estimate is not less than the exact number of choices. -/
theorem estimate_atLeast (n : Nat) {pattern : List UInt8} (hlength : pattern.length + 1 < 2 ^ 31) :
    AtLeast ((n + 1) ^ ((quantifiers pattern).repeats + 1) * 2 ^ (quantifiers pattern).optionals)
      (estimate n pattern) := by
  have hcount : (quantifiers pattern).repeats + (quantifiers pattern).optionals ≤ 0 + pattern.length :=
    total_countFrom_le true {} pattern.length pattern
  have hmin : min ((quantifiers pattern).repeats + 1) maxCount = (quantifiers pattern).repeats + 1 :=
    Nat.min_eq_left (by rw [maxCount]; omega)
  rw [estimate, hmin]
  exact (power_atLeast (base_atLeast n) (Nat.succ_pos n) (by omega)).mul
    (power_atLeast (atLeast_ofNat Nat.two_pos) Nat.two_pos (by omega))
    (Nat.pow_pos (Nat.succ_pos n)) (Nat.pow_pos Nat.two_pos)

/-- What is let through has no more choices than may be made. -/
theorem choices_le_of_refusal? {n : Nat} {pattern : List UInt8} (hlength : pattern.length + 1 < 2 ^ 31)
    (h : refusal? n pattern = none) :
    (n + 1) ^ ((quantifiers pattern).repeats + 1) * 2 ^ (quantifiers pattern).optionals ≤ maxSteps := by
  by_contra hexceeds
  have hlt : (Double.ofNat maxSteps).lt (estimate n pattern) = true :=
    lt_of_atLeast (by decide) (by decide) ((estimate_atLeast n hlength).mono (Nat.lt_of_not_le hexceeds))
  simp [refusal?, hlt] at h

end Estimate

/-! ## What is let through -/

/-- A match that is let through makes, for each byte of its pattern, at most the greatest number of steps. -/
theorem letThrough_tests_le (s p : ByteArray) (start : Nat) (hsize : p.size + 1 < 2 ^ 31)
    (h : refusal? s.size p.toList = none) :
    ((Pattern.ofBytes p).search s start).tests ≤ p.size * maxSteps := by
  have hcovers := covers_quantifiers p
  have hchoices := choices_le_of_refusal? (by rwa [toList_length]) h
  have hbranches : (s.size + 1) * branches (s.size + 1) (Pattern.ofBytes p).items ≤ maxSteps := by
    refine Nat.le_trans ?_ hchoices
    rw [branches, ← Nat.mul_assoc, ← Nat.pow_succ']
    refine Nat.mul_le_mul (Nat.pow_le_pow_right (Nat.succ_pos _) ?_) (Nat.pow_le_pow_right Nat.two_pos ?_)
    · have := hcovers.repeats
      omega
    · have := hcovers.optionals
      omega
  calc ((Pattern.ofBytes p).search s start).tests
      ≤ (s.size + 1) * work (s.size + 1) (Pattern.ofBytes p).items := search_tests_le ..
    _ ≤ (s.size + 1) * (weight (Pattern.ofBytes p).items * branches (s.size + 1) (Pattern.ofBytes p).items) :=
      Nat.mul_le_mul_left _ (work_le (Nat.succ_pos _) _)
    _ = weight (Pattern.ofBytes p).items * ((s.size + 1) * branches (s.size + 1) (Pattern.ofBytes p).items) :=
      Nat.mul_left_comm ..
    _ ≤ p.size * maxSteps := Nat.mul_le_mul (weight_ofBytes_le p) hbranches

theorem identifier_pattern_tests_le :
    (Bytes.ofString "^(%a+)_(%d+)$").size + 1 < 2 ^ 31 ∧
      refusal? (Bytes.ofString "window_20").size (Bytes.ofString "^(%a+)_(%d+)$").toList = none ∧
      ((Pattern.ofBytes (Bytes.ofString "^(%a+)_(%d+)$")).search (Bytes.ofString "window_20") 0).tests ≤
        (Bytes.ofString "^(%a+)_(%d+)$").size * maxSteps :=
  ⟨by decide +kernel, by decide +kernel, letThrough_tests_le _ _ 0 (by decide +kernel) (by decide +kernel)⟩

theorem get_replicate (n : Nat) (a : UInt8) :
    ∀ i < (ByteArray.mk (Array.replicate n a)).size, (ByteArray.mk (Array.replicate n a)).get! i = a := by
  intro i hi
  have hi : i < n := by simpa [ByteArray.size] using hi
  change (Array.replicate n a)[i]! = a
  simp [hi]

/-- Nine million times `a` are searched for `ab`. -/
theorem letThrough_exceeds_maxSteps :
    refusal? (ByteArray.mk (Array.replicate 9000000 97)).size (Bytes.ofString "ab").toList = none ∧
      maxSteps <
        ((Pattern.ofBytes (Bytes.ofString "ab")).search (ByteArray.mk (Array.replicate 9000000 97)) 0).tests := by
  have hsize : (ByteArray.mk (Array.replicate 9000000 97)).size = 9000000 := Array.size_replicate
  have hpattern : Pattern.ofBytes (Bytes.ofString "ab") = ⟨false, literals 97 1 98⟩ := by decide +kernel
  have htests := le_search_literals_tests (get_replicate 9000000 97) (show (98 : UInt8) ≠ 97 by decide) 1
  rw [hpattern]
  rw [hsize] at htests ⊢
  exact ⟨by decide +kernel, Nat.lt_of_lt_of_le (by decide) htests⟩

end StrategyBench.Sandbox.PatternCost
