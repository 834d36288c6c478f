/-
StrategyBench.Proofs.Number.Rounding — binary64 numbers from one on, and what rounding keeps of them.

A number from one on is `m · 2 ^ (p - 52)` with a whole `m` of 53 bits (`normal`), and two of them
compare as these products do (`lt_normal`). Rounding to the nearest never goes below an integer that is
a number itself, so that an integer of up to 53 bits below the exact value stays below the rounded one
(`atLeast_ofNat`).
-/

import Mathlib.Data.Nat.Bitwise
import Mathlib.Tactic.Ring
import Mathlib.Tactic.NormNum
import StrategyBench.Number.Double

namespace StrategyBench.Double

/-! ## Normal numbers -/

/-- A mantissa of exactly 53 bits. -/
structure Full (m : Nat) : Prop where
  lower : 2 ^ 52 ≤ m
  upper : m < 2 ^ 53

/-- The number `m · 2 ^ (p - 52)`, or infinity if that is too great. -/
def normal (m p : Nat) : Double := ⟨encode m (p - 52)⟩

variable {m m₀ p p₀ n : Nat} {x : Double}

theorem encode_of_full (h : Full m) (q : Int) : encode m q =
    if q > 971 then infinityBits else ((q + 1075).toNat * twoTo 52 + (m - twoTo 52)).toUInt64 := by
  have h53 : m ≠ twoTo 53 := Nat.ne_of_lt h.upper
  have h52 : ¬m < twoTo 52 := Nat.not_lt.mpr h.lower
  simp only [encode, if_neg h53, if_neg h52]

theorem bits_normal (h : Full m) (hp : p ≤ 1023) :
    (normal m p).bits.toNat = (p + 1023) * 2 ^ 52 + (m - 2 ^ 52) := by
  have hq : ¬((p : Int) - 52 > 971) := by omega
  have he : ((p : Int) - 52 + 1075).toNat = p + 1023 := by omega
  have h52 : twoTo 52 = 2 ^ 52 := rfl
  have hm := h.upper
  rw [normal, encode_of_full h, if_neg hq, he, h52, Nat.toUInt64_eq, UInt64.toNat_ofNat']
  omega

theorem bits_normal_of_great (h : Full m) (hp : 1023 < p) : (normal m p).bits = infinityBits := by
  rw [normal, encode_of_full h, if_pos (by omega)]

theorem toNat_infinityBits : infinityBits.toNat = 2047 * 2 ^ 52 := rfl

theorem bits_normal_le (h : Full m) : (normal m p).bits.toNat ≤ infinityBits.toNat := by
  rcases Nat.lt_or_ge 1023 p with hp | hp
  · rw [bits_normal_of_great h hp]
  · have hm := h.upper
    rw [bits_normal h hp, toNat_infinityBits]
    omega

/-! ## Comparing -/

theorem magnitude_of_le (h : x.bits.toNat ≤ infinityBits.toNat) : x.magnitude = x.bits := by
  have hmask : magnitudeMask.toNat = 2 ^ 63 - 1 := rfl
  apply UInt64.toNat_inj.mp
  rw [toNat_infinityBits] at h
  rw [magnitude, UInt64.toNat_and, hmask, Nat.and_two_pow_sub_one_eq_mod]
  omega

theorem isNegative_of_le (h : x.bits.toNat ≤ infinityBits.toNat) : x.isNegative = false := by
  have hsign : signBit.toNat = 2 ^ 63 := rfl
  rw [toNat_infinityBits] at h
  have hzero : x.bits &&& signBit = 0 := by
    apply UInt64.toNat_inj.mp
    rw [UInt64.toNat_and, hsign, Nat.and_two_pow, Nat.testBit_lt_two_pow (by omega)]
    rfl
  simp [isNegative, hzero]

theorem isNaN_of_le (h : x.bits.toNat ≤ infinityBits.toNat) : x.isNaN = false := by
  rw [isNaN, magnitude_of_le h]
  simpa [UInt64.lt_iff_toNat_lt] using h

theorem lt_of_bits_lt {y : Double} (h : x.bits.toNat < y.bits.toNat) (hy : y.bits.toNat ≤ infinityBits.toNat) :
    x.lt y = true := by
  have hx : x.bits.toNat ≤ infinityBits.toNat := Nat.le_of_lt (Nat.lt_of_lt_of_le h hy)
  simp only [lt, isNaN_of_le hx, isNaN_of_le hy, isNegative_of_le hx, isNegative_of_le hy,
    magnitude_of_le hx, magnitude_of_le hy]
  simpa [UInt64.lt_iff_toNat_lt] using h

/-- Normal numbers compare as their products do. -/
theorem lt_normal (h₀ : Full m₀) (h : Full m) (hp₀ : p₀ ≤ 1023) (hlt : m₀ * 2 ^ p₀ < m * 2 ^ p) :
    (normal m₀ p₀).lt (normal m p) = true := by
  refine lt_of_bits_lt ?_ (bits_normal_le h)
  rw [bits_normal h₀ hp₀]
  have hupper₀ := h₀.upper
  rcases Nat.lt_or_ge 1023 p with hp | hp
  · rw [bits_normal_of_great h hp, toNat_infinityBits]
    omega
  · rw [bits_normal h hp]
    have hlower := h.lower
    rcases Nat.lt_trichotomy p₀ p with hless | rfl | hgreater
    · omega
    · have hm := Nat.lt_of_mul_lt_mul_right hlt
      have hlower₀ := h₀.lower
      omega
    · -- a greater power would make the product greater
      have hpow : 2 ^ (p + 1) ≤ 2 ^ p₀ := Nat.pow_le_pow_right (by decide) hgreater
      have hle : m * 2 ^ p ≤ m₀ * 2 ^ p₀ :=
        calc m * 2 ^ p ≤ 2 ^ 53 * 2 ^ p := Nat.mul_le_mul_right _ (Nat.le_of_lt h.upper)
          _ = 2 ^ 52 * 2 ^ (p + 1) := by ring
          _ ≤ m₀ * 2 ^ p₀ := Nat.mul_le_mul h₀.lower hpow
      exact absurd hlt (Nat.not_lt.mpr hle)

/-! ## Lower bounds -/

/-- A number, from one on, that is not less than an integer; of one beyond `2 ^ 53`, no more is asked than of
that. -/
def AtLeast (n : Nat) (x : Double) : Prop :=
  ∃ m p, Full m ∧ x = normal m p ∧ min n (2 ^ 53) * 2 ^ 52 ≤ m * 2 ^ p

theorem AtLeast.mono (h : AtLeast n x) {k : Nat} (hk : k ≤ n) : AtLeast k x := by
  obtain ⟨m, p, hm, rfl, hn⟩ := h
  exact ⟨m, p, hm, rfl, Nat.le_trans (Nat.mul_le_mul_right _ (by omega)) hn⟩

/-- A mantissa that has been rounded up to 54 bits stands for one of 53. -/
theorem encode_normal (hlower : 2 ^ 52 ≤ m) (hupper : m ≤ 2 ^ 53) :
    ∃ m' p', Full m' ∧ (⟨encode m (p - 52)⟩ : Double) = normal m' p' ∧ m' * 2 ^ p' = m * 2 ^ p := by
  rcases Nat.lt_or_eq_of_le hupper with hlt | rfl
  · exact ⟨m, p, ⟨hlower, hlt⟩, rfl, rfl⟩
  · refine ⟨2 ^ 52, p + 1, ⟨by decide, by decide⟩, ?_, by ring⟩
    have hq : ((p : Int) - 52 + 1) = ((p + 1 : Nat) : Int) - 52 := by omega
    simp [normal, encode, twoTo, hq]

/-! ## Whole numbers -/

theorem roundHalfEven_one (k : Nat) : roundHalfEven k 1 = k := by
  simp [roundHalfEven, Nat.mod_one]

theorem div_le_roundHalfEven (k d : Nat) : k / d ≤ roundHalfEven k d := by
  unfold roundHalfEven
  dsimp only
  split <;> omega

theorem roundHalfEven_le (k d : Nat) : roundHalfEven k d ≤ k / d + 1 := by
  unfold roundHalfEven
  dsimp only
  split <;> omega

/-- A positive integer is scaled to its 53 leading bits, which are rounded. -/
theorem ofNat_eq_encode {k : Nat} (hk : 0 < k) : ofNat k =
    ⟨encode (if k.log2 < 52 then k * 2 ^ (52 - k.log2) else roundHalfEven k (2 ^ (k.log2 - 52)))
      (k.log2 - 52)⟩ := by
  have hk0 : k ≠ 0 := Nat.ne_of_gt hk
  have hreaches : k ≥ 1 * twoTo k.log2 := by
    rw [Nat.one_mul]
    exact Nat.log2_self_le hk0
  have hone : (Nat.log2 1 : Int) = 0 := by decide
  have hq : max ((k.log2 : Int) - 52) (-1074) = (k.log2 : Int) - 52 := by omega
  simp only [ofNat, ofRatio, hk0, if_false, hone, Int.sub_zero, Int.toNat_natCast, Int.natCast_nonneg, ge_iff_le,
    if_true, hreaches, decide_true, hq, Bool.false_eq_true]
  congr 2
  by_cases hsmall : k.log2 < 52
  · have hneg : ¬((0 : Int) ≤ (k.log2 : Int) - 52) := by omega
    have hshift : (-((k.log2 : Int) - 52)).toNat = 52 - k.log2 := by omega
    rw [if_neg hneg, if_pos hsmall, hshift, roundHalfEven_one]
    rfl
  · have hpos : (0 : Int) ≤ (k.log2 : Int) - 52 := by omega
    have hshift : ((k.log2 : Int) - 52).toNat = k.log2 - 52 := by omega
    rw [if_pos hpos, if_neg hsmall, hshift, Nat.one_mul]
    rfl

theorem scaled_mul_two_pow {k : Nat} (hsmall : k.log2 < 53) :
    k * 2 ^ (52 - k.log2) * 2 ^ k.log2 = k * 2 ^ 52 := by
  rw [Nat.mul_assoc, ← Nat.pow_add, Nat.sub_add_cancel (by omega)]

/-- An integer of up to 53 bits is a number as it is. -/
theorem ofNat_eq_normal {k : Nat} (hk : 0 < k) (hsmall : k.log2 < 53) :
    Full (k * 2 ^ (52 - k.log2)) ∧ ofNat k = normal (k * 2 ^ (52 - k.log2)) k.log2 := by
  have hscaled := scaled_mul_two_pow hsmall
  have hfull : Full (k * 2 ^ (52 - k.log2)) := by
    constructor
    · calc 2 ^ 52 = 2 ^ k.log2 * 2 ^ (52 - k.log2) := by rw [← Nat.pow_add]; congr 1; omega
        _ ≤ k * 2 ^ (52 - k.log2) := Nat.mul_le_mul_right _ (Nat.log2_self_le (Nat.ne_of_gt hk))
    · calc k * 2 ^ (52 - k.log2) < 2 ^ (k.log2 + 1) * 2 ^ (52 - k.log2) :=
            Nat.mul_lt_mul_of_pos_right Nat.lt_log2_self (Nat.two_pow_pos _)
        _ = 2 ^ 53 := by rw [← Nat.pow_add]; congr 1; omega
  refine ⟨hfull, ?_⟩
  rw [ofNat_eq_encode hk, normal]
  rcases Nat.lt_or_eq_of_le (Nat.le_of_lt_succ hsmall) with hless | heq
  · rw [if_pos hless]
  · rw [if_neg (by omega), heq, Nat.sub_self, Nat.pow_zero, roundHalfEven_one, Nat.mul_one]

theorem atLeast_ofNat {k : Nat} (hk : 0 < k) : AtLeast k (ofNat k) := by
  rcases Nat.lt_or_ge k.log2 53 with hsmall | hgreat
  · obtain ⟨hfull, heq⟩ := ofNat_eq_normal hk hsmall
    refine ⟨_, _, hfull, heq, ?_⟩
    rw [scaled_mul_two_pow hsmall]
    exact Nat.mul_le_mul_right _ (Nat.min_le_left ..)
  · have hdiv : 2 ^ 52 ≤ k / 2 ^ (k.log2 - 52) := by
      rw [Nat.le_div_iff_mul_le (Nat.two_pow_pos _), ← Nat.pow_add, Nat.add_sub_cancel' (by omega)]
      exact Nat.log2_self_le (Nat.ne_of_gt hk)
    have hdiv' : k / 2 ^ (k.log2 - 52) < 2 ^ 53 := by
      rw [Nat.div_lt_iff_lt_mul (Nat.two_pow_pos _), ← Nat.pow_add,
        show 53 + (k.log2 - 52) = k.log2 + 1 by omega]
      exact Nat.lt_log2_self
    obtain ⟨m, p, hfull, heq, hvalue⟩ := encode_normal (p := k.log2)
      (Nat.le_trans hdiv (div_le_roundHalfEven _ _)) (Nat.le_trans (roundHalfEven_le _ _) hdiv')
    refine ⟨m, p, hfull, ?_, ?_⟩
    · rw [ofNat_eq_encode hk, if_neg (by omega), heq]
    · rw [hvalue]
      calc min k (2 ^ 53) * 2 ^ 52 ≤ 2 ^ 53 * 2 ^ 52 := Nat.mul_le_mul_right _ (Nat.min_le_right ..)
        _ = 2 ^ 52 * 2 ^ 53 := Nat.mul_comm _ _
        _ ≤ roundHalfEven k (2 ^ (k.log2 - 52)) * 2 ^ k.log2 :=
          Nat.mul_le_mul (Nat.le_trans hdiv (div_le_roundHalfEven _ _)) (Nat.pow_le_pow_right (by decide) hgreat)

theorem ofInt_natCast (k : Nat) : ofInt k = ofNat k := by
  have hsign : ¬((k : Int) < 0) := by omega
  simp [ofInt, ofNat, hsign]

/-- What is not below the next integer is above an integer. -/
theorem lt_of_atLeast (hn : 0 < n) (hsmall : n < 2 ^ 53) (h : AtLeast (n + 1) x) : (ofNat n).lt x = true := by
  obtain ⟨m, p, hm, rfl, hle⟩ := h
  have hlog : n.log2 < 53 := (Nat.log2_lt (Nat.ne_of_gt hn)).mpr hsmall
  obtain ⟨hfull, heq⟩ := ofNat_eq_normal hn hlog
  rw [heq]
  refine lt_normal hfull hm (by omega) ?_
  rw [scaled_mul_two_pow hlog]
  rw [Nat.min_eq_left hsmall] at hle
  exact Nat.lt_of_lt_of_le (Nat.mul_lt_mul_of_pos_right (Nat.lt_succ_self n) (by decide)) hle

end StrategyBench.Double
