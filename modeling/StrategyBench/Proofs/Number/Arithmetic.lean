/-
StrategyBench.Proofs.Number.Arithmetic — sums and products of numbers from one on, from below.

The operations unpack their arguments, compute exactly, round, and pack the result. A number from one on
is unpacked to its mantissa and exponent (`unpack_normal`) and packed again as it was (`pack_unpacked`),
and rounding drops bits only beyond the 53 leading ones (`le_leading_mul_two_pow`). So an integer of up
to 53 bits that the exact result is not below, the computed one is not below either (`AtLeast.add`,
`AtLeast.mul`).
-/

import StrategyBench.Proofs.Number.Rounding

namespace StrategyBench.Double

open Float.Model Float.Model.UnpackedFloat

variable {m p n k a b : Nat} {x y : Double}

/-! ## Unpacking and packing -/

/-- The parts of a normal number; infinity where it is too great. -/
def unpacked (m p : Nat) (h : 0 < m) : UnpackedFloat :=
  if p ≤ 1023 then .finite .positive m (p - 52) h else .infinity .positive

theorem finite_congr {m' : Nat} {e e' : Int} {h0 : 0 < m} {h0' : 0 < m'} (hm : m = m') (he : e = e') :
    UnpackedFloat.finite .positive m e h0 = .finite .positive m' e' h0' := by
  subst hm he
  rfl

theorem unpacked_of_le (h0 : 0 < m) (hp : p ≤ 1023) : unpacked m p h0 = .finite .positive m (p - 52) h0 := if_pos hp

theorem unpacked_of_great (h0 : 0 < m) (hp : 1023 < p) : unpacked m p h0 = .infinity .positive :=
  if_neg (Nat.not_le.mpr hp)

theorem unpacked_eq_or (h0 : 0 < m) :
    unpacked m p h0 = .finite .positive m (p - 52) h0 ∨ unpacked m p h0 = .infinity .positive :=
  (Nat.lt_or_ge 1023 p).symm.imp (unpacked_of_le h0) (unpacked_of_great h0)

/-- The three fields of a pattern. -/
abbrev mantissaField (b : BitVec 64) : BitVec 52 := @unpackMantissa Format.binary64 b
abbrev exponentField (b : BitVec 64) : BitVec 11 := @unpackExponent Format.binary64 b
abbrev signField (b : BitVec 64) : BitVec 1 := @unpackSign Format.binary64 b

theorem toNat_mantissaField (b : BitVec 64) : (mantissaField b).toNat = b.toNat % 2 ^ 52 := by
  change (b.toNat >>> 0) % 2 ^ 52 = _
  rw [Nat.shiftRight_zero]

theorem toNat_exponentField (b : BitVec 64) : (exponentField b).toNat = b.toNat / 2 ^ 52 % 2 ^ 11 := by
  change (b.toNat >>> 52) % 2 ^ 11 = _
  rw [Nat.shiftRight_eq_div_pow]

theorem toNat_signField (b : BitVec 64) : (signField b).toNat = b.toNat / 2 ^ 63 % 2 := by
  change (b.toNat >>> 63) % 2 ^ 1 = _
  rw [Nat.shiftRight_eq_div_pow]

/-- A pattern with an exponent between the least and the greatest is that of a number with an implicit bit. -/
theorem unpack_of_exponentField {b : BitVec 64} {e : Nat} (he : (exponentField b).toNat = e) (he0 : 0 < e)
    (he1 : e < 2047) (hsign : signField b = 0#1) :
    UnpackedFloat.unpack Format.binary64 b =
      .finite .positive (2 ^ 52 + (mantissaField b).toNat) (e - 1075) (by omega) := by
  have hspecial : exponentField b ≠ -1#11 := by
    intro h
    have h := congrArg BitVec.toNat h
    change (exponentField b).toNat = 2047 at h
    omega
  have hsubnormal : exponentField b ≠ 0#11 := by
    intro h
    have h := congrArg BitVec.toNat h
    change (exponentField b).toNat = 0 at h
    omega
  have hm : (1#1 ++ mantissaField b).toNat = 2 ^ 52 + (mantissaField b).toNat := by
    change 2 ^ 52 ||| (mantissaField b).toNat = _
    rw [Nat.or_comm, Nat.or_two_pow_eq_add_of_lt (mantissaField b).isLt, Nat.add_comm]
  unfold UnpackedFloat.unpack
  change (if exponentField b = -1#11 then _ else if exponentField b = 0#11 then _ else _) = _
  rw [if_neg hspecial, if_neg hsubnormal]
  congr 1
  · change Sign.ofBitVec (signField b) = _
    rw [hsign]
    rfl
  · change ((exponentField b).toNat : Int) - (1023 + 52) = e - 1075
    omega

theorem unpack_normal (h : Full m) (h0 : 0 < m) :
    UnpackedFloat.unpack Format.binary64 (normal m p).bits.toBitVec = unpacked m p h0 := by
  rcases Nat.lt_or_ge 1023 p with hp | hp
  · rw [bits_normal_of_great h hp, unpacked_of_great h0 hp]
    rfl
  · have hbits : (normal m p).bits.toBitVec.toNat = (p + 1023) * 2 ^ 52 + (m - 2 ^ 52) := bits_normal h hp
    obtain ⟨hlower, hupper⟩ := h
    generalize (normal m p).bits.toBitVec = b at hbits
    have hbelow : b.toNat < 2 ^ 63 := by omega
    have hsign : signField b = 0#1 :=
      BitVec.eq_of_toNat_eq (by rw [toNat_signField, Nat.div_eq_of_lt hbelow]; rfl)
    have hmantissa : 2 ^ 52 + (mantissaField b).toNat = m := by
      rw [toNat_mantissaField]
      omega
    have hexponent : (exponentField b).toNat = p + 1023 := by
      rw [toNat_exponentField]
      omega
    have hbias : ((p + 1023 : Nat) : Int) - 1075 = p - 52 := by omega
    rw [unpack_of_exponentField hexponent (by omega) (by omega) hsign, unpacked_of_le h0 hp]
    exact finite_congr hmantissa hbias

/-- A number whose exponent is too great is packed to infinity. -/
theorem pack_finite (h : Full m) (h0 : 0 < m) :
    UInt64.ofBitVec (UnpackedFloat.pack Format.binary64 (.finite .positive m (p - 52) h0)) = (normal m p).bits := by
  have hlog : m.log2 = 52 := (Nat.log2_eq_iff (Nat.ne_of_gt h0)).mpr ⟨h.lower, h.upper⟩
  have hbiased : (((p : Int) - 52) + Format.binary64.exponentBias +
      Format.binary64.mantissaBitsWithoutImplicit).toNat = p + 1023 := by
    change ((p : Int) - 52 + 1023 + 52).toNat = _
    omega
  unfold UnpackedFloat.pack
  simp only [hlog, hbiased]
  rcases Nat.lt_or_ge 1023 p with hp | hp
  · have hgreat : 2 ^ Format.binary64.exponentBits ≤ p + 1023 + 1 := by
      change 2048 ≤ p + 1023 + 1
      omega
    rw [bits_normal_of_great h hp, if_pos hgreat]
    rfl
  · have hfinite : ¬2 ^ Format.binary64.exponentBits ≤ p + 1023 + 1 := by
      change ¬2048 ≤ p + 1023 + 1
      omega
    have hbits := bits_normal h hp
    obtain ⟨hlower, hupper⟩ := h
    rw [if_neg hfinite, if_pos (show 52 + 1 = Format.binary64.mantissaBits from rfl)]
    apply UInt64.toNat_inj.mp
    rw [hbits]
    unfold packComponents
    rw [UInt64.toNat_ofBitVec, BitVec.toNat_append, BitVec.toNat_append]
    change (0 <<< 11 ||| (p + 1023) % 2 ^ 11) <<< 52 ||| m % 2 ^ 52 = _
    rw [Nat.zero_shiftLeft, Nat.zero_or, Nat.shiftLeft_eq, Nat.mul_comm,
      ← Nat.two_pow_add_eq_or_of_lt (Nat.mod_lt _ (by decide))]
    omega

theorem pack_unpacked (h : Full m) (h0 : 0 < m) :
    UInt64.ofBitVec (UnpackedFloat.pack Format.binary64 (unpacked m p h0)) = (normal m p).bits := by
  rcases Nat.lt_or_ge 1023 p with hp | hp
  · rw [bits_normal_of_great h hp, unpacked_of_great h0 hp]
    rfl
  · rw [unpacked_of_le h0 hp]
    exact pack_finite h h0

theorem unpack_toFloat (h : Full m) (h0 : 0 < m) : (normal m p).toFloat.toModel.unpack = unpacked m p h0 := by
  change UnpackedFloat.unpack Format.binary64 (UInt64.ofBitVec (UnpackedFloat.pack Format.binary64
    (UnpackedFloat.unpack Format.binary64 (normal m p).bits.toBitVec))).toBitVec = _
  rw [unpack_normal h h0, pack_unpacked h h0, unpack_normal h h0]

/-- What is not a number is none of these. -/
theorem isNaN_unpacked (h0 : 0 < m) : (unpacked m p h0).isNaN = false := by
  rcases unpacked_eq_or h0 with h | h <;> rw [h] <;> rfl

theorem ofFloat_of_toBits {f : Float} (h : Full m) (hf : f.toBits = (normal m p).bits) : ofFloat f = normal m p := by
  have h0 : 0 < m := Nat.lt_of_lt_of_le (by decide) h.lower
  have hnumber : f.isNaN = false := by
    change (UnpackedFloat.unpack Format.binary64 f.toBits.toBitVec).isNaN = false
    rw [hf, unpack_normal h h0, isNaN_unpacked]
  simp only [ofFloat, hnumber, hf, Bool.false_eq_true, if_false]

/-! ## Rounding -/

/-- The 53 leading bits of a mantissa. -/
def leading (m : Nat) : Nat := m / 2 ^ (m.log2 - 52)

theorem full_leading (hm : 52 ≤ m.log2) : Full (leading m) := by
  have hm0 : m ≠ 0 := by
    rintro rfl
    exact absurd hm (by decide)
  constructor
  · rw [leading, Nat.le_div_iff_mul_le (Nat.two_pow_pos _), ← Nat.pow_add, Nat.add_sub_cancel' hm]
    exact Nat.log2_self_le hm0
  · rw [leading, Nat.div_lt_iff_lt_mul (Nat.two_pow_pos _), ← Nat.pow_add,
      show 53 + (m.log2 - 52) = m.log2 + 1 by omega]
    exact Nat.lt_log2_self

/-- Up to 54 bits nothing but a last zero is dropped. -/
theorem leading_mul_two_pow (hlower : 2 ^ 52 ≤ m) (hupper : m ≤ 2 ^ 53) :
    leading m * 2 ^ (m.log2 - 52) = m := by
  rcases Nat.lt_or_eq_of_le hupper with hlt | rfl
  · have hlog : m.log2 = 52 := (Nat.log2_eq_iff (by omega)).mpr ⟨hlower, hlt⟩
    simp [leading, hlog]
  · rw [leading, Nat.log2_two_pow]
    norm_num

/-- A shift drops the last bits of a mantissa. -/
theorem mantissa_shiftRight (em : ExtendedMantissa) (k : Nat) : (em >>> k).mantissa = em.mantissa / 2 ^ k := by
  induction k with
  | zero => exact (Nat.div_one _).symm
  | succ k ih =>
    change (em >>> k).mantissa / 2 = _
    rw [ih, Nat.div_div_eq_div_mul, Nat.pow_succ]

theorem roundedMantissa_bounds (em : ExtendedMantissa) :
    em.mantissa ≤ em.roundedMantissa ∧ em.roundedMantissa ≤ em.mantissa + 1 := by
  obtain ⟨m, r, s⟩ := em
  cases r <;> cases s <;>
    simp [ExtendedMantissa.roundedMantissa, ExtendedMantissa.accuracy, Accuracy.roundToNearestEven]
  omega

theorem targetExponent_of_le {e : Int} (h : -1022 ≤ m.log2 + e) :
    Format.binary64.targetExponent (totalExponent m e) = m.log2 + e - 52 := by
  change max ((m.log2 : Int) + 1 + e - 53) (-1074) = _
  omega

theorem shiftToTargetExponent_of_le {e : Int} (hm : 52 ≤ m.log2) (h : -1022 ≤ m.log2 + e) :
    (shiftToTargetExponent Format.binary64 m e .exact).1.mantissa = leading m ∧
      (shiftToTargetExponent Format.binary64 m e .exact).2 = m.log2 + e - 52 := by
  have hshift : ((m.log2 : Int) + e - 52 - e).toNat = m.log2 - 52 := by omega
  unfold shiftToTargetExponent
  simp only [targetExponent_of_le h, shiftToExponent, hshift, mantissa_shiftRight]
  refine ⟨rfl, ?_⟩
  omega

/-- Rounding cuts to the leading bits, adds one or not, and cuts again in case that has made them 54. -/
theorem roundWithAccuracy_of_le {e : Int} (hm : 52 ≤ m.log2) (h : -1022 ≤ m.log2 + e) :
    ∃ r h0, leading m ≤ r ∧ r ≤ 2 ^ 53 ∧ 52 ≤ r.log2 ∧
      roundWithAccuracy Format.binary64 .positive m e .exact =
        .finite .positive (leading r) (m.log2 + e + (r.log2 - 52 : Nat) - 52) h0 := by
  obtain ⟨hmantissa, hexponent⟩ := shiftToTargetExponent_of_le hm h
  have hfull := full_leading hm
  unfold roundWithAccuracy
  generalize shiftToTargetExponent Format.binary64 m e .exact = first at hmantissa hexponent
  obtain ⟨em, e₁⟩ := first
  simp only at hmantissa hexponent
  subst hexponent
  have hr := roundedMantissa_bounds em
  rw [hmantissa] at hr
  have hlog : 52 ≤ em.roundedMantissa.log2 :=
    (Nat.le_log2 (by have := hfull.lower; omega)).mpr (Nat.le_trans hfull.lower hr.1)
  obtain ⟨hmantissa', hexponent'⟩ := shiftToTargetExponent_of_le (e := m.log2 + e - 52) hlog (by omega)
  refine ⟨em.roundedMantissa, Nat.lt_of_lt_of_le (by decide) (full_leading hlog).lower, hr.1,
    Nat.le_trans hr.2 hfull.upper, hlog, ?_⟩
  have hne : leading em.roundedMantissa ≠ 0 := by
    have := (full_leading hlog).lower
    omega
  dsimp only
  rw [dif_neg (hmantissa' ▸ hne)]
  refine finite_congr hmantissa' ?_
  rw [hexponent']
  omega

/-- The leading bits are not below an integer that has no more. -/
theorem le_leading_mul_two_pow (hlog : 52 ≤ m.log2) (hexponent : a ≤ m.log2 + b) (hn : n ≤ 2 ^ 53)
    (h : n * 2 ^ a ≤ m * 2 ^ b) : n * 2 ^ 52 ≤ leading m * 2 ^ (m.log2 + b - a) := by
  rcases Nat.lt_or_ge 52 (m.log2 + b - a) with hgreat | hsmall
  · calc n * 2 ^ 52 ≤ 2 ^ 53 * 2 ^ 52 := Nat.mul_le_mul_right _ hn
      _ = 2 ^ 52 * 2 ^ 53 := Nat.mul_comm _ _
      _ ≤ leading m * 2 ^ (m.log2 + b - a) :=
        Nat.mul_le_mul (full_leading hlog).lower (Nat.pow_le_pow_right (by decide) hgreat)
  · -- the integer has no bits where those of the mantissa are dropped
    have hab : b ≤ a := by omega
    have hm : n * 2 ^ (a - b) ≤ m := by
      refine Nat.le_of_mul_le_mul_right ?_ (Nat.two_pow_pos b)
      rwa [Nat.mul_assoc, ← Nat.pow_add, Nat.sub_add_cancel hab]
    have hleading : n * 2 ^ (52 - (m.log2 + b - a)) ≤ leading m := by
      rw [leading, Nat.le_div_iff_mul_le (Nat.two_pow_pos _), Nat.mul_assoc, ← Nat.pow_add,
        show 52 - (m.log2 + b - a) + (m.log2 - 52) = a - b by omega]
      exact hm
    calc n * 2 ^ 52 = n * 2 ^ (52 - (m.log2 + b - a)) * 2 ^ (m.log2 + b - a) := by
          rw [Nat.mul_assoc, ← Nat.pow_add, Nat.sub_add_cancel hsmall]
      _ ≤ leading m * 2 ^ (m.log2 + b - a) := Nat.mul_le_mul_right _ hleading

/-- Rounding does not go below an integer of up to 53 bits. -/
theorem roundWithAccuracy_atLeast (hm : 2 ^ 52 ≤ m) (hn : 0 < n) (hn' : n ≤ 2 ^ 53)
    (h : n * 2 ^ a ≤ m * 2 ^ b) :
    ∃ (m' p' : Nat) (h0 : 0 < m'), Full m' ∧ n * 2 ^ 52 ≤ m' * 2 ^ p' ∧
      roundWithAccuracy Format.binary64 .positive m (b - a) .exact = .finite .positive m' (p' - 52) h0 := by
  have hlog : 52 ≤ m.log2 := (Nat.le_log2 (by omega)).mpr hm
  -- the value is not below one, so that its exponent is none below zero
  have hexponent : a ≤ m.log2 + b := by
    have hlt : 2 ^ a < 2 ^ (m.log2 + 1 + b) :=
      calc 2 ^ a ≤ n * 2 ^ a := Nat.le_mul_of_pos_left _ hn
        _ ≤ m * 2 ^ b := h
        _ < 2 ^ (m.log2 + 1) * 2 ^ b := Nat.mul_lt_mul_of_pos_right Nat.lt_log2_self (Nat.two_pow_pos _)
        _ = 2 ^ (m.log2 + 1 + b) := (Nat.pow_add ..).symm
    have := (Nat.pow_lt_pow_iff_right (by decide)).mp hlt
    omega
  obtain ⟨r, h0, hle, hr, hrlog, hround⟩ := roundWithAccuracy_of_le (e := b - a) hlog (by omega)
  refine ⟨leading r, m.log2 + b - a + (r.log2 - 52), h0, full_leading hrlog, ?_, ?_⟩
  · calc n * 2 ^ 52 ≤ leading m * 2 ^ (m.log2 + b - a) := le_leading_mul_two_pow hlog hexponent hn' h
      _ ≤ r * 2 ^ (m.log2 + b - a) := Nat.mul_le_mul_right _ hle
      _ = leading r * 2 ^ (m.log2 + b - a + (r.log2 - 52)) := by
        rw [Nat.pow_add, Nat.mul_left_comm, leading_mul_two_pow
          (Nat.le_trans (full_leading hlog).lower hle) hr, Nat.mul_comm]
  · rw [hround]
    exact finite_congr rfl (by omega)

/-! ## Sums and products -/

/-- What has an exponent of 53 or more is not below any integer. -/
theorem normal_atLeast (h : Full m) (hp : 53 ≤ p) (n : Nat) : AtLeast n (normal m p) :=
  ⟨m, p, h, rfl,
    calc min n (2 ^ 53) * 2 ^ 52 ≤ 2 ^ 53 * 2 ^ 52 := Nat.mul_le_mul_right _ (Nat.min_le_right ..)
      _ = 2 ^ 52 * 2 ^ 53 := Nat.mul_comm _ _
      _ ≤ m * 2 ^ p := Nat.mul_le_mul h.lower (Nat.pow_le_pow_right (by decide) hp)⟩

/-- The bound of an exact result is one of what it is rounded to. -/
theorem ofFloat_atLeast {f : Float} (hm : 2 ^ 52 ≤ m) (hn : 0 < n)
    (h : min n (2 ^ 53) * 2 ^ a ≤ m * 2 ^ b)
    (hf : f.toModel = Float.Model.pack (roundWithAccuracy Format.binary64 .positive m (b - a) .exact)) :
    AtLeast n (ofFloat f) := by
  obtain ⟨m', p', h0, hfull, hle, hround⟩ :=
    roundWithAccuracy_atLeast hm (Nat.lt_min.mpr ⟨hn, by decide⟩) (Nat.min_le_right ..) h
  refine ⟨m', p', hfull, ofFloat_of_toBits hfull ?_, hle⟩
  change f.toModel.toBits = _
  rw [hf, hround]
  exact pack_finite hfull h0

theorem ofFloat_infinity_atLeast {f : Float} (n : Nat)
    (hf : f.toModel = Float.Model.pack (.infinity .positive)) : AtLeast n (ofFloat f) := by
  have hfull : Full (2 ^ 52) := ⟨by decide, by decide⟩
  have hbits : f.toBits = (normal (2 ^ 52) 1024).bits := by
    change f.toModel.toBits = _
    rw [hf]
    rfl
  rw [ofFloat_of_toBits hfull hbits]
  exact normal_atLeast hfull (by decide) n

/-- An operation that is computed exactly and rounded keeps a bound of the exact result. -/
theorem lift2_atLeast {f : Float → Float → Float} {op : UnpackedFloat → UnpackedFloat → UnpackedFloat} {q : Nat}
    (hop : ∀ u v, (f u v).toModel = Float.Model.pack (op u.toModel.unpack v.toModel.unpack))
    (hm : Full m) (hk : Full k) (hn : 0 < n)
    (hleft : ∀ h0, op (.infinity .positive) (unpacked k q h0) = .infinity .positive)
    (hright : ∀ h0, op (unpacked m p h0) (.infinity .positive) = .infinity .positive)
    (hfinite : ∃ l a b : Nat, 2 ^ 52 ≤ l ∧ min n (2 ^ 53) * 2 ^ a ≤ l * 2 ^ b ∧
      ∀ h0 h0', op (.finite .positive m (p - 52) h0) (.finite .positive k (q - 52) h0') =
        roundWithAccuracy Format.binary64 .positive l (b - a) .exact) :
    AtLeast n (lift2 f (normal m p) (normal k q)) := by
  have hm0 : 0 < m := Nat.lt_of_lt_of_le (by decide) hm.lower
  have hk0 : 0 < k := Nat.lt_of_lt_of_le (by decide) hk.lower
  have hresult : (f (normal m p).toFloat (normal k q).toFloat).toModel =
      Float.Model.pack (op (unpacked m p hm0) (unpacked k q hk0)) := by
    rw [hop, unpack_toFloat hm hm0, unpack_toFloat hk hk0]
  simp only [lift2, isNaN_of_le (bits_normal_le hm), isNaN_of_le (bits_normal_le hk), Bool.false_eq_true, if_false]
  rcases Nat.lt_or_ge 1023 p with hp | hp
  · refine ofFloat_infinity_atLeast n ?_
    rw [hresult, unpacked_of_great hm0 hp, hleft]
  rcases Nat.lt_or_ge 1023 q with hq | hq
  · refine ofFloat_infinity_atLeast n ?_
    rw [hresult, unpacked_of_great hk0 hq, hright]
  · obtain ⟨l, a, b, hl, hle, hround⟩ := hfinite
    refine ofFloat_atLeast hl hn hle ?_
    rw [hresult, unpacked_of_le hm0 hp, unpacked_of_le hk0 hq, hround]

/-- A bound on each of two factors is one on the product. -/
theorem min_mul_le {c : Nat} (ha : 0 < a) (hb : 0 < b) (hc : 0 < c) : min (a * b) c ≤ min a c * min b c := by
  rcases Nat.le_total a c with hac | hca
  · rw [Nat.min_eq_left hac]
    rcases Nat.le_total b c with hbc | hcb
    · rw [Nat.min_eq_left hbc]
      exact Nat.min_le_left ..
    · rw [Nat.min_eq_right hcb]
      exact Nat.le_trans (Nat.min_le_right ..) (Nat.le_mul_of_pos_left c ha)
  · rw [Nat.min_eq_right hca]
    exact Nat.le_trans (Nat.min_le_right ..) (Nat.le_mul_of_pos_right c (Nat.lt_min.mpr ⟨hb, hc⟩))

theorem AtLeast.mul (hx : AtLeast a x) (hy : AtLeast b y) (ha : 0 < a) (hb : 0 < b) :
    AtLeast (a * b) (x.mul y) := by
  obtain ⟨m, p, hm, rfl, hle⟩ := hx
  obtain ⟨k, q, hk, rfl, hle'⟩ := hy
  have hmk : 2 ^ 52 ≤ m * k :=
    Nat.le_trans hm.lower (Nat.le_mul_of_pos_right _ (Nat.lt_of_lt_of_le (by decide) hk.lower))
  have hproduct : min (a * b) (2 ^ 53) * 2 ^ 104 ≤ m * k * 2 ^ (p + q) :=
    calc min (a * b) (2 ^ 53) * 2 ^ 104
        ≤ min a (2 ^ 53) * min b (2 ^ 53) * 2 ^ 104 := Nat.mul_le_mul_right _ (min_mul_le ha hb (by decide))
      _ = (min a (2 ^ 53) * 2 ^ 52) * (min b (2 ^ 53) * 2 ^ 52) := by ring
      _ ≤ (m * 2 ^ p) * (k * 2 ^ q) := Nat.mul_le_mul hle hle'
      _ = m * k * 2 ^ (p + q) := by ring
  have hexponent : ((p : Int) - 52) + (q - 52) = (p + q : Nat) - (104 : Nat) := by omega
  have hinfinite {l r : Nat} (h0 : 0 < l) :
      UnpackedFloat.mul Format.binary64 (.infinity .positive) (unpacked l r h0) = .infinity .positive ∧
      UnpackedFloat.mul Format.binary64 (unpacked l r h0) (.infinity .positive) = .infinity .positive := by
    rcases unpacked_eq_or h0 with h | h <;> rw [h] <;> exact ⟨rfl, rfl⟩
  refine lift2_atLeast (fun _ _ => rfl) hm hk (Nat.mul_pos ha hb) (fun h0 => (hinfinite h0).1)
    (fun h0 => (hinfinite h0).2) ⟨m * k, 104, p + q, hmk, hproduct, fun h0 h0' => ?_⟩
  rw [← hexponent]
  rfl

theorem decreaseExponent_of_le {e t : Int} (h : e ≤ t) : decreaseExponent m e t = (m, e) := by
  have hshift : (e - t).toNat = 0 := by omega
  simp [decreaseExponent, hshift]

/-- A mantissa of 53 bits or more is rounded as it is. -/
theorem normalize_of_le {e : Int} (hm : 2 ^ 52 ≤ m) (h : -1022 ≤ m.log2 + e) :
    UnpackedFloat.normalize Format.binary64 m e .positive = roundWithAccuracy Format.binary64 .positive m e .exact := by
  have hlog : 52 ≤ m.log2 := (Nat.le_log2 (by omega)).mpr hm
  have hcompare : compare (m : Int) 0 = .gt := Int.compare_eq_gt.mpr (by omega)
  have hround : UnpackedFloat.round Format.binary64 .positive m e =
      roundWithAccuracy Format.binary64 .positive m e .exact := by
    unfold UnpackedFloat.round
    simp only [targetExponent_of_le h]
    rw [decreaseExponent_of_le (by omega)]
  simpa only [UnpackedFloat.normalize, hcompare, Int.toNat_natCast] using hround

theorem add_finite {q : Nat} (hm : 2 ^ 52 ≤ m) (hm0 : 0 < m) (hk0 : 0 < k) :
    UnpackedFloat.add Format.binary64 (.finite .positive m (p - 52) hm0) (.finite .positive k (q - 52) hk0) =
      roundWithAccuracy Format.binary64 .positive
        (m * 2 ^ (p - min p q) + k * 2 ^ (q - min p q)) ((min p q : Nat) - (52 : Nat)) .exact := by
  have hmin : min ((p : Int) - 52) (q - 52) = (min p q : Nat) - (52 : Nat) := by omega
  have hp : ((p : Int) - 52 - ((min p q : Nat) - (52 : Nat))).toNat = p - min p q := by omega
  have hq : ((q : Int) - 52 - ((min p q : Nat) - (52 : Nat))).toNat = q - min p q := by omega
  have hsum : 2 ^ 52 ≤ m * 2 ^ (p - min p q) + k * 2 ^ (q - min p q) :=
    calc 2 ^ 52 ≤ m := hm
      _ ≤ m * 2 ^ (p - min p q) := Nat.le_mul_of_pos_right _ (Nat.two_pow_pos _)
      _ ≤ _ := Nat.le_add_right _ _
  rw [← normalize_of_le hsum (by omega), ← hmin]
  change UnpackedFloat.normalize Format.binary64
    ((m <<< ((p : Int) - 52 - min ((p : Int) - 52) (q - 52)).toNat : Nat) +
      (k <<< ((q : Int) - 52 - min ((p : Int) - 52) (q - 52)).toNat : Nat))
    (min ((p : Int) - 52) (q - 52)) .positive = _
  rw [hmin, hp, hq, Nat.shiftLeft_eq, Nat.shiftLeft_eq, Int.natCast_add]

theorem AtLeast.add (hx : AtLeast a x) (hy : AtLeast b y) (hpos : 0 < a + b) :
    AtLeast (a + b) (x.add y) := by
  obtain ⟨m, p, hm, rfl, hle⟩ := hx
  obtain ⟨k, q, hk, rfl, hle'⟩ := hy
  have hmantissa : 2 ^ 52 ≤ m * 2 ^ (p - min p q) + k * 2 ^ (q - min p q) :=
    Nat.le_trans hm.lower (Nat.le_trans (Nat.le_mul_of_pos_right _ (Nat.two_pow_pos _)) (Nat.le_add_right _ _))
  have hsum : min (a + b) (2 ^ 53) * 2 ^ 52 ≤ (m * 2 ^ (p - min p q) + k * 2 ^ (q - min p q)) * 2 ^ min p q := by
    have hp : m * 2 ^ (p - min p q) * 2 ^ min p q = m * 2 ^ p := by
      rw [Nat.mul_assoc, ← Nat.pow_add, Nat.sub_add_cancel (Nat.min_le_left p q)]
    have hq : k * 2 ^ (q - min p q) * 2 ^ min p q = k * 2 ^ q := by
      rw [Nat.mul_assoc, ← Nat.pow_add, Nat.sub_add_cancel (Nat.min_le_right p q)]
    calc min (a + b) (2 ^ 53) * 2 ^ 52 ≤ (min a (2 ^ 53) + min b (2 ^ 53)) * 2 ^ 52 :=
          Nat.mul_le_mul_right _ (by omega)
      _ = min a (2 ^ 53) * 2 ^ 52 + min b (2 ^ 53) * 2 ^ 52 := Nat.add_mul ..
      _ ≤ m * 2 ^ p + k * 2 ^ q := Nat.add_le_add hle hle'
      _ = _ := by rw [Nat.add_mul, hp, hq]
  have hinfinite {l r : Nat} (h0 : 0 < l) :
      UnpackedFloat.add Format.binary64 (.infinity .positive) (unpacked l r h0) = .infinity .positive ∧
      UnpackedFloat.add Format.binary64 (unpacked l r h0) (.infinity .positive) = .infinity .positive := by
    rcases unpacked_eq_or h0 with h | h <;> rw [h] <;> exact ⟨rfl, rfl⟩
  exact lift2_atLeast (fun _ _ => rfl) hm hk hpos (fun h0 => (hinfinite h0).1) (fun h0 => (hinfinite h0).2)
    ⟨_, 52, min p q, hmantissa, hsum, add_finite hm.lower⟩

end StrategyBench.Double
