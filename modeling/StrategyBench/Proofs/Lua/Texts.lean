/-
StrategyBench.Proofs.Lua.Texts — the bytes of a text, read as text again.

The bytes of a character are read as that character, whatever follows (`firstChar_utf8EncodeChar`), so
the bytes of a text are read as that text (`text?_ofString`), also where bytes follow that are no text
(`toText_ofString_append`). And no other bytes are read as that character
(`FirstRead.utf8EncodeChar`), none but its own as a text (`eq_ofString_of_text?`).
-/

import Mathlib.Data.List.Basic
import StrategyBench.Lua.Bytes

namespace StrategyBench.Bytes

/-! ## Bytes by their numbers -/

theorem toNat_ofNat {n : Nat} (h : n < 256) : (UInt8.ofNat n).toNat = n := by
  rw [UInt8.toNat_ofNat', Nat.mod_eq_of_lt h]

theorem lt_ofNat_iff {m n : Nat} (hm : m < 256) (hn : n < 256) : UInt8.ofNat m < UInt8.ofNat n ↔ m < n := by
  rw [UInt8.lt_iff_toNat_lt, toNat_ofNat hm, toNat_ofNat hn]

theorem payload_ofNat {n : Nat} (h : n < 64) : payload (UInt8.ofNat (n + 128)) = n := by
  have hall : ∀ n < 64, payload (UInt8.ofNat (n + 128)) = n := by decide
  exact hall n h

theorem isContinuation_ofNat {n : Nat} (h : n < 64) : isContinuation (UInt8.ofNat (n + 128)) = true := by
  have hall : ∀ n < 64, isContinuation (UInt8.ofNat (n + 128)) = true := by decide
  exact hall n h

/-- A byte between bounds is none that is refused. -/
theorem within_bounds (low n high : Nat) (hlow : low ≤ n) (hhigh : n ≤ high) (h : high < 256) :
    (decide (UInt8.ofNat n < UInt8.ofNat low) || decide (UInt8.ofNat high < UInt8.ofNat n)) = false := by
  rw [Bool.or_eq_false_iff, decide_eq_false_iff_not, decide_eq_false_iff_not,
    lt_ofNat_iff (by omega) (by omega), lt_ofNat_iff (by omega) (by omega)]
  omega

/-! ## Lead bytes -/

theorem leadShape_two {n : Nat} (hlow : 2 ≤ n) (h : n < 32) :
    leadShape (UInt8.ofNat (n + 192)) = some (2, UInt8.ofNat 0x80, UInt8.ofNat 0xBF) ∧
      ((UInt8.ofNat (n + 192)) &&& 0x1F).toNat = n ∧ ¬UInt8.ofNat (n + 192) < 0x80 := by
  have hall : ∀ n < 32, 2 ≤ n → leadShape (UInt8.ofNat (n + 192)) = some (2, UInt8.ofNat 0x80, UInt8.ofNat 0xBF) ∧
      ((UInt8.ofNat (n + 192)) &&& 0x1F).toNat = n ∧ ¬UInt8.ofNat (n + 192) < 0x80 := by decide
  exact hall n h hlow

/-- The bounds of the second of three bytes leave out what has a shorter form, and what is no character. -/
theorem leadShape_three {n : Nat} (h : n < 16) :
    leadShape (UInt8.ofNat (n + 224)) =
        some (3, UInt8.ofNat (if n = 0 then 0xA0 else 0x80), UInt8.ofNat (if n = 13 then 0x9F else 0xBF)) ∧
      ((UInt8.ofNat (n + 224)) &&& 0x0F).toNat = n ∧ ¬UInt8.ofNat (n + 224) < 0x80 := by
  have hall : ∀ n < 16, leadShape (UInt8.ofNat (n + 224)) =
        some (3, UInt8.ofNat (if n = 0 then 0xA0 else 0x80), UInt8.ofNat (if n = 13 then 0x9F else 0xBF)) ∧
      ((UInt8.ofNat (n + 224)) &&& 0x0F).toNat = n ∧ ¬UInt8.ofNat (n + 224) < 0x80 := by decide
  exact hall n h

theorem leadShape_four {n : Nat} (h : n < 5) :
    leadShape (UInt8.ofNat (n + 240)) =
        some (4, UInt8.ofNat (if n = 0 then 0x90 else 0x80), UInt8.ofNat (if n = 4 then 0x8F else 0xBF)) ∧
      ((UInt8.ofNat (n + 240)) &&& 0x07).toNat = n ∧ ¬UInt8.ofNat (n + 240) < 0x80 := by
  have hall : ∀ n < 5, leadShape (UInt8.ofNat (n + 240)) =
        some (4, UInt8.ofNat (if n = 0 then 0x90 else 0x80), UInt8.ofNat (if n = 4 then 0x8F else 0xBF)) ∧
      ((UInt8.ofNat (n + 240)) &&& 0x07).toNat = n ∧ ¬UInt8.ofNat (n + 240) < 0x80 := by decide
  exact hall n h

/-! ## Characters -/

section

variable {b c d e low high : UInt8} {rest : List UInt8}

theorem firstChar_two (hb : ¬b < 0x80) (hshape : leadShape b = some (2, low, high))
    (hc : (decide (c < low) || decide (high < c)) = false) :
    firstChar b (c :: rest) = (some (Char.ofNat ((b &&& 0x1F).toNat * 64 + payload c)), rest) := by
  simp only [firstChar, if_neg hb, hshape, hc, Bool.false_eq_true, if_false, if_true]

theorem firstChar_three (hb : ¬b < 0x80) (hshape : leadShape b = some (3, low, high))
    (hc : (decide (c < low) || decide (high < c)) = false) (hd : isContinuation d = true) :
    firstChar b (c :: d :: rest) =
      (some (Char.ofNat (((b &&& 0x0F).toNat * 64 + payload c) * 64 + payload d)), rest) := by
  simp only [firstChar, if_neg hb, hshape, hc, hd, Bool.false_eq_true, Bool.not_true, if_false, if_true,
    Nat.reduceEqDiff]

theorem firstChar_four (hb : ¬b < 0x80) (hshape : leadShape b = some (4, low, high))
    (hc : (decide (c < low) || decide (high < c)) = false) (hd : isContinuation d = true)
    (he : isContinuation e = true) :
    firstChar b (c :: d :: e :: rest) =
      (some (Char.ofNat ((((b &&& 0x07).toNat * 64 + payload c) * 64 + payload d) * 64 + payload e)), rest) := by
  simp only [firstChar, if_neg hb, hshape, hc, hd, he, Bool.false_eq_true, Bool.not_true, if_false,
    Nat.reduceEqDiff]

end

/-- Of the bytes of a character and more, that character is read first. -/
theorem firstChar_utf8EncodeChar (c : Char) (rest : List UInt8) :
    ∃ b bs, String.utf8EncodeChar c ++ rest = b :: bs ∧ firstChar b bs = (some c, rest) := by
  have hvalid : c.toNat < 0xD800 ∨ 0xDFFF < c.toNat ∧ c.toNat < 0x110000 := c.valid
  have hc : Char.ofNat c.toNat = c := Char.ofNat_toNat c
  have hbytes : c.val.toNat = c.toNat := rfl
  unfold String.utf8EncodeChar
  rw [hbytes]
  generalize c.toNat = n at hvalid hc
  dsimp only
  split_ifs with hone htwo hthree
  · refine ⟨_, rest, rfl, ?_⟩
    have hlow : UInt8.ofNat n < 0x80 := (lt_ofNat_iff (m := n) (n := 128) (by omega) (by omega)).mpr (by omega)
    rw [firstChar, if_pos hlow, toNat_ofNat (by omega), hc]
  · obtain ⟨hshape, hlead, hhigh⟩ := leadShape_two (n := n / 64 % 32) (by omega) (by omega)
    refine ⟨_, UInt8.ofNat (n % 64 + 128) :: rest, rfl, ?_⟩
    have hn : n / 64 % 32 * 64 + n % 64 = n := by omega
    rw [firstChar_two hhigh hshape (within_bounds _ _ _ (by omega) (by omega) (by omega)), hlead,
      payload_ofNat (by omega), hn, hc]
  · obtain ⟨hshape, hlead, hhigh⟩ := leadShape_three (n := n / 4096 % 16) (by omega)
    refine ⟨_, UInt8.ofNat (n / 64 % 64 + 128) :: UInt8.ofNat (n % 64 + 128) :: rest, rfl, ?_⟩
    have hn : (n / 4096 % 16 * 64 + n / 64 % 64) * 64 + n % 64 = n := by omega
    have hsecond := within_bounds (if n / 4096 % 16 = 0 then 0xA0 else 0x80) (n / 64 % 64 + 128)
      (if n / 4096 % 16 = 13 then 0x9F else 0xBF) (by split_ifs <;> omega) (by split_ifs <;> omega)
      (by split_ifs <;> omega)
    rw [firstChar_three hhigh hshape hsecond (isContinuation_ofNat (by omega)), hlead, payload_ofNat (by omega),
      payload_ofNat (by omega), hn, hc]
  · obtain ⟨hshape, hlead, hhigh⟩ := leadShape_four (n := n / 262144 % 8) (by omega)
    refine ⟨_, UInt8.ofNat (n / 4096 % 64 + 128) :: UInt8.ofNat (n / 64 % 64 + 128) ::
      UInt8.ofNat (n % 64 + 128) :: rest, rfl, ?_⟩
    have hn : ((n / 262144 % 8 * 64 + n / 4096 % 64) * 64 + n / 64 % 64) * 64 + n % 64 = n := by omega
    have hsecond := within_bounds (if n / 262144 % 8 = 0 then 0x90 else 0x80) (n / 4096 % 64 + 128)
      (if n / 262144 % 8 = 4 then 0x8F else 0xBF) (by split_ifs <;> omega) (by split_ifs <;> omega)
      (by split_ifs <;> omega)
    rw [firstChar_four hhigh hshape hsecond (isContinuation_ofNat (by omega)) (isContinuation_ofNat (by omega)),
      hlead, payload_ofNat (by omega), payload_ofNat (by omega), payload_ofNat (by omega), hn, hc]

/-! ## Characters read back -/

theorem and_mask (b : UInt8) : (b &&& 0x1F).toNat = b.toNat % 32 ∧ (b &&& 0x0F).toNat = b.toNat % 16 ∧
    (b &&& 0x07).toNat = b.toNat % 8 ∧ payload b = b.toNat % 64 :=
  ⟨Nat.and_two_pow_sub_one_eq_mod b.toNat 5, Nat.and_two_pow_sub_one_eq_mod b.toNat 4,
    Nat.and_two_pow_sub_one_eq_mod b.toNat 3, Nat.and_two_pow_sub_one_eq_mod b.toNat 6⟩

/-- How many bytes a character has whose first byte is `b`, and what bounds the second. -/
theorem bounds_of_leadShape {b low high : UInt8} {n : Nat} (h : leadShape b = some (n, low, high)) :
    0x80 ≤ low.toNat ∧ high.toNat ≤ 0xBF ∧
      (n = 2 ∧ 0xC2 ≤ b.toNat ∧ b.toNat < 0xE0 ∨
        n = 3 ∧ 0xE0 ≤ b.toNat ∧ b.toNat < 0xF0 ∧ (b.toNat = 0xE0 → 0xA0 ≤ low.toNat) ∧
          (b.toNat = 0xED → high.toNat ≤ 0x9F) ∨
        n = 4 ∧ 0xF0 ≤ b.toNat ∧ b.toNat < 0xF5 ∧ (b.toNat = 0xF0 → 0x90 ≤ low.toNat) ∧
          (b.toNat = 0xF4 → high.toNat ≤ 0x8F)) := by
  have heq (c : UInt8) : b = c ↔ b.toNat = c.toNat := UInt8.toNat_inj.symm
  unfold leadShape at h
  simp only [UInt8.lt_iff_toNat_lt, beq_iff_eq, heq, UInt8.reduceToNat] at h
  split_ifs at h
  all_goals
    cases h
    simp only [UInt8.reduceToNat, Nat.reduceEqDiff, Nat.reduceLeDiff, true_and, false_and, and_true, false_or,
      or_false, imp_false, implies_true]
    omega

theorem bounds_of_isContinuation {b : UInt8} (h : isContinuation b = true) : 0x80 ≤ b.toNat ∧ b.toNat ≤ 0xBF := by
  have hall : ∀ n < 256, isContinuation (UInt8.ofNat n) = true → 0x80 ≤ n ∧ n ≤ 0xBF := by decide +kernel
  exact hall b.toNat b.toNat_lt (by rwa [UInt8.ofNat_toNat])

theorem toNat_charOfNat {n : Nat} (h : n < 0xD800 ∨ 0xDFFF < n ∧ n < 0x110000) : (Char.ofNat n).val.toNat = n := by
  have hvalid : n.isValidChar := h
  unfold Char.ofNat
  rw [dif_pos hvalid]
  rfl

theorem ofNat_eq {n : Nat} {b : UInt8} (h : n = b.toNat) : UInt8.ofNat n = b := by rw [h, UInt8.ofNat_toNat]

theorem utf8EncodeChar_ofNat {n : Nat} (h : n < 0xD800 ∨ 0xDFFF < n ∧ n < 0x110000) :
    String.utf8EncodeChar (Char.ofNat n) =
      if n ≤ 0x7F then [UInt8.ofNat n]
      else if n ≤ 0x7FF then [UInt8.ofNat (n / 64 % 32 + 192), UInt8.ofNat (n % 64 + 128)]
      else if n ≤ 0xFFFF then
        [UInt8.ofNat (n / 4096 % 16 + 224), UInt8.ofNat (n / 64 % 64 + 128), UInt8.ofNat (n % 64 + 128)]
      else
        [UInt8.ofNat (n / 262144 % 8 + 240), UInt8.ofNat (n / 4096 % 64 + 128), UInt8.ofNat (n / 64 % 64 + 128),
          UInt8.ofNat (n % 64 + 128)] := by
  unfold String.utf8EncodeChar
  rw [toNat_charOfNat h]

/-- What a character is read from: a byte of its own, or a first byte that says how many follow. -/
inductive FirstRead (b : UInt8) : List UInt8 → Char → List UInt8 → Prop
  | one {rest : List UInt8} (hb : b.toNat < 0x80) : FirstRead b rest (Char.ofNat b.toNat) rest
  | two {c low high : UInt8} {rest : List UInt8} (hshape : leadShape b = some (2, low, high))
    (hc : low.toNat ≤ c.toNat ∧ c.toNat ≤ high.toNat) :
    FirstRead b (c :: rest) (Char.ofNat ((b &&& 0x1F).toNat * 64 + payload c)) rest
  | three {c d low high : UInt8} {rest : List UInt8} (hshape : leadShape b = some (3, low, high))
    (hc : low.toNat ≤ c.toNat ∧ c.toNat ≤ high.toNat) (hd : isContinuation d = true) :
    FirstRead b (c :: d :: rest) (Char.ofNat (((b &&& 0x0F).toNat * 64 + payload c) * 64 + payload d)) rest
  | four {c d e low high : UInt8} {rest : List UInt8} (hshape : leadShape b = some (4, low, high))
    (hc : low.toNat ≤ c.toNat ∧ c.toNat ≤ high.toNat) (hd : isContinuation d = true)
    (he : isContinuation e = true) :
    FirstRead b (c :: d :: e :: rest)
      (Char.ofNat ((((b &&& 0x07).toNat * 64 + payload c) * 64 + payload d) * 64 + payload e)) rest

theorem firstRead_of_firstChar {b : UInt8} {bs rest : List UInt8} {c : Char} (h : firstChar b bs = (some c, rest)) :
    FirstRead b bs c rest := by
  have hread {n : Nat} {bs : List UInt8} (h : (some (Char.ofNat n), bs) = (some c, rest)) :
      Char.ofNat n = c ∧ bs = rest :=
    ⟨Option.some.inj (Prod.mk.inj h).1, (Prod.mk.inj h).2⟩
  unfold firstChar at h
  split at h
  · rename_i hlow
    obtain ⟨rfl, rfl⟩ := hread h
    exact .one (UInt8.lt_iff_toNat_lt.mp hlow)
  · split at h
    · cases h
    · rename_i n low high hshape
      obtain ⟨-, -, hcases⟩ := bounds_of_leadShape hshape
      split at h
      · cases h
      · rename_i d bs
        split at h
        · cases h
        · rename_i hd
          have hd : low.toNat ≤ d.toNat ∧ d.toNat ≤ high.toNat := by
            simpa [UInt8.lt_iff_toNat_lt, UInt8.le_iff_toNat_le] using hd
          split at h
          · rename_i htwo
            obtain ⟨rfl, rfl⟩ := hread h
            exact .two (htwo ▸ hshape) hd
          · split at h
            · cases h
            · rename_i e bs
              split at h
              · cases h
              · rename_i he
                split at h
                · rename_i hthree
                  obtain ⟨rfl, rfl⟩ := hread h
                  exact .three (hthree ▸ hshape) hd (by simpa using he)
                · split at h
                  · cases h
                  · split at h
                    · cases h
                    · rename_i hf
                      obtain ⟨rfl, rfl⟩ := hread h
                      obtain rfl : n = 4 := by omega
                      exact .four hshape hd (by simpa using he) (by simpa using hf)

/-- A character that is read has the bytes that it was read from. -/
theorem FirstRead.utf8EncodeChar {b : UInt8} {bs rest : List UInt8} {c : Char} (h : FirstRead b bs c rest) :
    String.utf8EncodeChar c ++ rest = b :: bs := by
  have hpayload (d : UInt8) : payload d = d.toNat % 64 := (and_mask d).2.2.2
  obtain ⟨hfive, hfour, hthree, -⟩ := and_mask b
  cases h with
  | one hb =>
    rw [utf8EncodeChar_ofNat (by omega), if_pos (by omega), UInt8.ofNat_toNat]
    rfl
  | @two c low high rest hshape hc =>
    obtain ⟨hlow, hhigh, hcases⟩ := bounds_of_leadShape hshape
    rw [hfive, hpayload, utf8EncodeChar_ofNat (by omega), if_neg (by omega), if_pos (by omega),
      ofNat_eq (b := b) (by omega), ofNat_eq (b := c) (by omega)]
    rfl
  | @three c d low high rest hshape hc hd =>
    obtain ⟨hlow, hhigh, hcases⟩ := bounds_of_leadShape hshape
    have hd := bounds_of_isContinuation hd
    rw [hfour, hpayload, hpayload, utf8EncodeChar_ofNat (by omega), if_neg (by omega), if_neg (by omega),
      if_pos (by omega), ofNat_eq (b := b) (by omega), ofNat_eq (b := c) (by omega), ofNat_eq (b := d) (by omega)]
    rfl
  | @four c d e low high rest hshape hc hd he =>
    obtain ⟨hlow, hhigh, hcases⟩ := bounds_of_leadShape hshape
    have hd := bounds_of_isContinuation hd
    have he := bounds_of_isContinuation he
    rw [hthree, hpayload, hpayload, hpayload, utf8EncodeChar_ofNat (by omega), if_neg (by omega), if_neg (by omega),
      if_neg (by omega), ofNat_eq (b := b) (by omega), ofNat_eq (b := c) (by omega), ofNat_eq (b := d) (by omega),
      ofNat_eq (b := e) (by omega)]
    rfl

/-! ## Texts -/

theorem toList_loop_eq (s : ByteArray) (i : Nat) (acc : List UInt8) :
    ByteArray.toList.loop s i acc = acc.reverse ++ s.data.toList.drop i := by
  fun_induction ByteArray.toList.loop s i acc with
  | case1 i acc hi ih =>
    have hget : s.get! i = s.data.toList[i] := by
      rw [Array.getElem_toList]
      exact getElem!_pos s.data i hi
    rw [ih, List.reverse_cons, List.append_assoc, List.singleton_append, hget, List.getElem_cons_drop]
  | case2 i acc hi =>
    rw [List.drop_of_length_le (by simpa using hi), List.append_nil]

theorem toList_eq (s : ByteArray) : s.toList = s.data.toList := toList_loop_eq s 0 []

theorem length_toList (s : ByteArray) : s.toList.length = s.size := by
  rw [toList_eq]
  rfl

theorem toList_append (s t : ByteArray) : (s ++ t).toList = s.toList ++ t.toList := by
  rw [toList_eq, toList_eq, toList_eq, ByteArray.toList_data_append]

theorem toList_ofString (s : String) : (ofString s).toList = s.toList.flatMap String.utf8EncodeChar := by
  rw [toList_eq, ofString, String.toUTF8_eq_toByteArray, ← String.utf8Encode_toList, List.utf8Encode,
    List.toList_data_toByteArray]

theorem length_firstChar_le (b : UInt8) (bs : List UInt8) : (firstChar b bs).2.length ≤ bs.length := by
  unfold firstChar
  repeat' split
  all_goals
    simp only [List.length_cons]
    omega

theorem decodeOnto_append (acc : List (Option Char)) (n : Nat) (bs : List UInt8) :
    decodeOnto acc n bs = decodeOnto [] n bs ++ acc := by
  induction n generalizing acc bs with
  | zero => rfl
  | succ n ih =>
    cases bs with
    | nil => rfl
    | cons b bs =>
      rw [decodeOnto, decodeOnto]
      dsimp only
      rw [ih (_ :: acc), ih [_], List.append_assoc, List.singleton_append]

/-- Reading takes at most as many steps as there are bytes. -/
theorem decodeOnto_of_le (acc : List (Option Char)) {n : Nat} {bs : List UInt8} (hn : bs.length ≤ n) :
    decodeOnto acc n bs = decodeOnto acc bs.length bs := by
  suffices hany : ∀ m n acc bs, bs.length ≤ m → bs.length ≤ n → decodeOnto acc m bs = decodeOnto acc n bs from
    hany n bs.length acc bs hn (Nat.le_refl _)
  intro m
  induction m with
  | zero =>
    intro n acc bs hm _
    obtain rfl := List.length_eq_zero_iff.mp (Nat.le_zero.mp hm)
    cases n <;> rfl
  | succ m ih =>
    intro n acc bs hm hn
    cases bs with
    | nil => cases n <;> rfl
    | cons b bs =>
      rw [List.length_cons] at hm hn
      cases n with
      | zero => omega
      | succ n =>
        have hshorter := length_firstChar_le b bs
        rw [decodeOnto, decodeOnto]
        generalize firstChar b bs = first at hshorter ⊢
        obtain ⟨c?, rest⟩ := first
        dsimp only at hshorter ⊢
        exact ih n _ rest (by omega) (by omega)

/-- The bytes of characters are read as those characters, whatever follows. -/
theorem decodeOnto_utf8Encode (acc : List (Option Char)) (cs : List Char) (rest : List UInt8) (n : Nat)
    (hn : (cs.flatMap String.utf8EncodeChar ++ rest).length ≤ n) :
    decodeOnto acc n (cs.flatMap String.utf8EncodeChar ++ rest) =
      decodeOnto ((cs.map some).reverse ++ acc) rest.length rest := by
  induction cs generalizing acc n with
  | nil => exact decodeOnto_of_le acc hn
  | cons c cs ih =>
    obtain ⟨b, bs, hbytes, hfirst⟩ := firstChar_utf8EncodeChar c (cs.flatMap String.utf8EncodeChar ++ rest)
    have hpos : 0 < (String.utf8EncodeChar c).length := List.length_pos_of_ne_nil String.utf8EncodeChar_ne_nil
    rw [List.flatMap_cons, List.append_assoc, List.length_append] at hn
    rw [List.flatMap_cons, List.append_assoc, hbytes]
    cases n with
    | zero => omega
    | succ n =>
      rw [decodeOnto, hfirst]
      dsimp only
      rw [ih _ n (by omega), List.map_cons, List.reverse_cons, List.append_assoc, List.singleton_append]

theorem decode_ofString_append (s : String) (bs : ByteArray) :
    decode (ofString s ++ bs) = s.toList.map some ++ decode bs := by
  have hlength : (s.toList.flatMap String.utf8EncodeChar ++ bs.toList).length = (ofString s ++ bs).size := by
    rw [← toList_ofString, ← toList_append, length_toList]
  rw [decode, toList_append, toList_ofString,
    decodeOnto_utf8Encode [] s.toList bs.toList _ (Nat.le_of_eq hlength),
    List.append_nil, decodeOnto_append, List.reverse_append, List.reverse_reverse, length_toList]
  rfl

theorem decode_ofString (s : String) : decode (ofString s) = s.toList.map some := by
  have h := decode_ofString_append s ByteArray.empty
  rwa [ByteArray.append_empty, show decode ByteArray.empty = [] from rfl, List.append_nil] at h

/-- Text before other bytes is read as it is. -/
theorem toText_ofString_append (s : String) (bs : ByteArray) : toText (ofString s ++ bs) = s ++ toText bs := by
  have hsame : (s.toList.map some).map (·.getD '\uFFFD') = s.toList := by
    rw [List.map_map]
    exact List.map_id _
  rw [toText, decode_ofString_append, List.map_append, hsame, String.ofList_append, String.ofList_toList]
  rfl

theorem ofString_append (s t : String) : ofString (s ++ t) = ofString s ++ ofString t := String.toByteArray_append

theorem toText_ofString (s : String) : toText (ofString s) = s := by
  have h := toText_ofString_append s ByteArray.empty
  rwa [ByteArray.append_empty, show toText ByteArray.empty = "" from rfl, String.append_empty] at h

/-- The bytes of a text are read as that text. -/
theorem text?_ofString (s : String) : text? (ofString s) = some s := by
  have hall : (s.toList.map some).all Option.isSome = true := by simp
  have htexts : (s.toList.map some).filterMap id = s.toList := by simp
  rw [text?, decode_ofString, if_pos hall, htexts, String.ofList_toList]

theorem ofString_injective {s t : String} (h : ofString s = ofString t) : s = t := by
  have htext := text?_ofString s
  rw [h, text?_ofString] at htext
  exact (Option.some.inj htext).symm

/-! ## Texts read back -/

/-- Bytes that are all read as characters are the bytes of those. -/
theorem flatMap_of_decodeOnto {n : Nat} {bs : List UInt8} (hn : bs.length ≤ n)
    (hall : ∀ c? ∈ decodeOnto [] n bs, c?.isSome = true) :
    ((decodeOnto [] n bs).reverse.filterMap id).flatMap String.utf8EncodeChar = bs := by
  induction n generalizing bs with
  | zero =>
    obtain rfl := List.length_eq_zero_iff.mp (Nat.le_zero.mp hn)
    rfl
  | succ n ih =>
    cases bs with
    | nil => rfl
    | cons b bs =>
      obtain ⟨c?, rest, hfirst⟩ : ∃ c? rest, firstChar b bs = (c?, rest) := ⟨_, _, rfl⟩
      have hstep : decodeOnto [] (n + 1) (b :: bs) = decodeOnto [] n rest ++ [c?] := by
        rw [decodeOnto, hfirst]
        exact decodeOnto_append [c?] n rest
      rw [hstep] at hall ⊢
      obtain ⟨c, rfl⟩ := Option.isSome_iff_exists.mp (hall c? (by simp))
      have hbytes := (firstRead_of_firstChar hfirst).utf8EncodeChar
      have hpos : 0 < (String.utf8EncodeChar c).length := List.length_pos_of_ne_nil String.utf8EncodeChar_ne_nil
      have hlength := congrArg List.length hbytes
      rw [List.length_append, List.length_cons] at hlength
      rw [List.length_cons] at hn
      have hshorter : rest.length ≤ n := by omega
      have hrest := ih hshorter fun c? hc => hall c? (List.mem_append_left _ hc)
      rw [List.reverse_append, List.reverse_singleton, List.singleton_append,
        List.filterMap_cons_some (f := id) (a := some c) (b := c) rfl, List.flatMap_cons, hrest, hbytes]

/-- What is read as a text has the bytes of that text. -/
theorem eq_ofString_of_text? {s : ByteArray} {k : String} (h : text? s = some k) : s = ofString k := by
  rw [text?] at h
  split at h
  · rename_i hall
    obtain rfl := Option.some.inj h
    have hbytes := flatMap_of_decodeOnto (Nat.le_of_eq (length_toList s)) fun c? hc =>
      List.all_eq_true.mp hall c? (List.mem_reverse.mpr hc)
    rw [ByteArray.ext_iff, ← Array.toList_inj, ← toList_eq, ← toList_eq, toList_ofString, String.toList_ofList]
    exact hbytes.symm
  · cases h

end StrategyBench.Bytes
