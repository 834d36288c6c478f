/-
StrategyBench.Proofs.Sandbox.PatternScan — the scan of a pattern against the reading of its items.

The scan and the reader go through the bytes of a pattern apart: the reader takes an item at a time,
the scan a byte, an escape or a set. Where the reader has taken an item the scan stands after it too, and
has counted it (`scan_readItem`); what it has counted besides, a quantifier that is a character there,
only adds (`within_countFrom`). So the scan counts no fewer items of either kind than are read, whether a
leading `^` is an anchor or a character (`quantifiers_never_undercount`), and a set ends for both at the
same bracket (`skipSet_of_readSet`).
-/

import StrategyBench.Sandbox.PatternCost
import StrategyBench.Proofs.Lua.MatchCost

namespace StrategyBench.Lua.Pattern

/-! ## Kinds of items -/

/-- An item that goes over bytes of the subject in a loop of its own. -/
def Item.loops : Item → Bool
  | .single _ suffix => suffix.repeats
  | .balance _ _ | .backReference _ => true
  | _ => false

/-- An item that matches with a byte or without. -/
def Item.isOptional : Item → Bool
  | .single _ .optional => true
  | _ => false

theorem repeats_le_countP (items : List Item) : repeats items ≤ items.countP Item.loops := by
  induction items with
  | nil => exact Nat.le_refl 0
  | cons item items ih =>
    rw [repeats_cons, List.countP_cons]
    have hitem : repeats [item] ≤ if item.loops then 1 else 0 := by
      cases item with
      | single k suffix => cases suffix <;> simp [repeats, Item.loops, Suffix.repeats]
      | _ => simp [repeats]
    omega

theorem optionals_eq_countP (items : List Item) : optionals items = items.countP Item.isOptional := by
  induction items with
  | nil => rfl
  | cons item items ih =>
    rw [optionals_cons, List.countP_cons, ih, Nat.add_comm]
    have hitem : optionals [item] = if item.isOptional then 1 else 0 := by
      cases item with
      | single k suffix => cases suffix <;> simp [optionals, Item.isOptional]
      | _ => simp [optionals, Item.isOptional]
    rw [hitem]

end StrategyBench.Lua.Pattern

namespace StrategyBench.Sandbox.PatternCost

open StrategyBench.Lua StrategyBench.Lua.Pattern

/-! ## Counting -/

variable {q r c : Quantifiers} {item : Pattern.Item} {items : List Pattern.Item} {cs rest : List UInt8}
  {first : Bool} {n : Nat}

/-- No fewer of either kind. -/
structure Quantifiers.Within (q r : Quantifiers) : Prop where
  repeats : q.repeats ≤ r.repeats
  optionals : q.optionals ≤ r.optionals

theorem Quantifiers.Within.refl (q : Quantifiers) : q.Within q := ⟨Nat.le_refl _, Nat.le_refl _⟩

theorem Quantifiers.Within.trans (hqr : q.Within r) (hrc : r.Within c) : q.Within c :=
  ⟨Nat.le_trans hqr.repeats hrc.repeats, Nat.le_trans hqr.optionals hrc.optionals⟩

theorem within_repeated (q : Quantifiers) : q.Within q.repeated := ⟨Nat.le_succ _, Nat.le_refl _⟩

theorem within_optional (q : Quantifiers) : q.Within q.optional := ⟨Nat.le_refl _, Nat.le_succ _⟩

/-- A scan only adds. -/
theorem within_countFrom (first : Bool) (q : Quantifiers) (n : Nat) (cs : List UInt8) :
    q.Within (countFrom first q n cs) := by
  fun_induction countFrom first q n cs with
  | case1 | case2 => exact .refl _
  | case3 first q n rest ih => exact (within_repeated q).trans ih
  | case4 first q n c rest _ ih =>
    refine Quantifiers.Within.trans ?_ ih
    split
    · exact within_repeated q
    · exact .refl q
  | case5 first q n rest ih => exact ih
  | case6 q n c rest _ _ _ ih => exact ih
  | case7 first q n c rest _ _ _ _ _ ih => exact (within_repeated q).trans ih
  | case8 first q n rest _ _ _ _ _ ih => exact (within_optional q).trans ih
  | case9 first q n c rest _ _ _ _ _ _ ih => exact ih

/-- A scan that had counted `q` has counted the items too when it has come to `c`. -/
structure Covers (q : Quantifiers) (items : List Pattern.Item) (c : Quantifiers) : Prop where
  loops : q.repeats + items.countP Item.loops ≤ c.repeats
  options : q.optionals + items.countP Item.isOptional ≤ c.optionals

theorem Covers.repeats (h : Covers q items c) : q.repeats + repeats items ≤ c.repeats :=
  Nat.le_trans (Nat.add_le_add_left (repeats_le_countP items) _) h.loops

theorem Covers.optionals (h : Covers q items c) : q.optionals + optionals items ≤ c.optionals := by
  rw [optionals_eq_countP]
  exact h.options

theorem covers_of_within (hloops : items.countP Item.loops = 0) (hoptions : items.countP Item.isOptional = 0)
    (h : q.Within c) : Covers q items c := by
  constructor
  · rw [hloops]
    exact h.repeats
  · rw [hoptions]
    exact h.optionals

theorem covers_repeated (q : Quantifiers) (hloops : item.loops = true) (hoptions : item.isOptional = false) :
    Covers q [item] q.repeated := by
  constructor
  · rw [List.countP_singleton, if_pos hloops]
    exact Nat.le_refl _
  · rw [List.countP_singleton, hoptions]
    exact Nat.le_refl _

theorem Covers.weaken {q' c' : Quantifiers} (hq : q.Within q') (hc : c.Within c') (h : Covers q' items c) :
    Covers q items c' :=
  ⟨Nat.le_trans (Nat.add_le_add_right hq.repeats _) (Nat.le_trans h.loops hc.repeats),
    Nat.le_trans (Nat.add_le_add_right hq.optionals _) (Nat.le_trans h.options hc.optionals)⟩

theorem Covers.cons {q' : Quantifiers} (hitem : Covers q [item] q') (hitems : Covers q' items c) :
    Covers q (item :: items) c := by
  have hloops := Nat.le_trans (Nat.add_le_add_right hitem.loops _) hitems.loops
  have hoptions := Nat.le_trans (Nat.add_le_add_right hitem.options _) hitems.options
  have hsplit : item :: items = [item] ++ items := rfl
  constructor
  · rwa [hsplit, List.countP_append, ← Nat.add_assoc]
  · rwa [hsplit, List.countP_append, ← Nat.add_assoc]

/-! ## The scan of an item -/

/-- The scan of a byte that starts neither an escape nor a set. -/
theorem countFrom_byte (first : Bool) (q : Quantifiers) (n : Nat) (b : UInt8) (rest : List UInt8)
    (hescape : ∀ c t, b = 37 → rest = c :: t → False) (hset : b = 91 → False) :
    ∃ q', q.Within q' ∧ countFrom first q (n + 1) (b :: rest) = countFrom false q' n rest := by
  rw [countFrom]
  · split
    · exact ⟨q, .refl q, rfl⟩
    split
    · exact ⟨q.repeated, within_repeated q, rfl⟩
    split
    · exact ⟨q.optional, within_optional q, rfl⟩
    · exact ⟨q, .refl q, rfl⟩
  · exact fun t => hescape 98 t
  · exact hescape
  · exact hset

theorem countFrom_plain (first : Bool) (q : Quantifiers) (n : Nat) {b : UInt8} (hescape : b ≠ 37) (hset : b ≠ 91)
    (rest : List UInt8) :
    ∃ q', q.Within q' ∧ countFrom first q (n + 1) (b :: rest) = countFrom false q' n rest :=
  countFrom_byte first q n b rest (fun _ _ h => absurd h hescape) hset

theorem setEnd_of_setBody {acc cs body rest : List UInt8} (hacc : acc ≠ []) (h : setBody acc cs = some (body, rest)) :
    setEnd cs = rest := by
  fun_induction setBody acc cs with
  | case1 => cases h
  | case2 acc c tail ih => exact ih (by simp) h
  | case3 acc c tail _ hend =>
    cases h
    rw [hend.1, setEnd]
  | case4 acc c tail hescape hend ih =>
    rw [setEnd]
    · exact ih (by simp) h
    · exact hescape
    · exact fun hc => hend ⟨hc, hacc⟩

/-- What is after the body of a set; its first byte is a member whatever it is. -/
def bodyEnd : List UInt8 → List UInt8
  | 93 :: rest => setEnd rest
  | cs => setEnd cs

theorem bodyEnd_of_setBody {body : List UInt8} (h : setBody [] cs = some (body, rest)) : bodyEnd cs = rest := by
  fun_cases setBody [] cs with
  | case1 => cases h
  | case2 c tail =>
    rw [setBody] at h
    change setEnd tail = rest
    exact setEnd_of_setBody (List.cons_ne_nil _ _) h
  | case3 c tail _ hend => exact absurd rfl hend.2
  | case4 c tail hescape hend =>
    rw [setBody, if_neg hend] at h
    · have htail := setEnd_of_setBody (List.cons_ne_nil _ _) h
      unfold bodyEnd
      split
      · rename_i heq
        cases heq
        exact htail
      · rename_i hbracket
        rw [setEnd]
        · exact htail
        · exact hescape
        · rintro rfl
          exact hbracket tail rfl
    · exact hescape

theorem skipSet_of_readSet {set : CharSet} (h : readSet cs = some (set, rest)) : skipSet cs = rest := by
  unfold readSet at h
  split at h
  rename_i negated tail heq
  have hskip : skipSet cs = bodyEnd tail := by
    split at heq <;> cases heq
    · rfl
    · rename_i hcaret
      unfold skipSet
      split
      · exact absurd rfl (hcaret _)
      · rfl
  obtain ⟨⟨body, after⟩, hbody, hafter⟩ := Option.map_eq_some_iff.mp h
  cases hafter
  rw [hskip]
  exact bodyEnd_of_setBody hbody

/-- After a class the scan goes on with the suffix. -/
theorem scan_readClass (first : Bool) (q : Quantifiers) {k : CharClass} (hn : cs.length ≤ n)
    (hbalance : ∀ t, cs = 37 :: 98 :: t → False) (h : readClass cs = .ok (k, rest)) :
    ∃ q' n', q.Within q' ∧ rest.length ≤ n' ∧ countFrom first q n cs = countFrom false q' n' rest := by
  have hlength := readClass_length_lt h
  obtain _ | n := n
  · omega
  unfold readClass at h
  split at h
  · cases h
  · rename_i _ c tail
    cases h
    have hc : c = 98 → False := fun hc => hbalance rest (by rw [hc])
    rw [countFrom]
    · refine ⟨_, n, ?_, ?_, rfl⟩
      · split
        · exact within_repeated q
        · exact .refl q
      · simp only [List.length_cons] at hn
        omega
    · exact hc
  · split at h
    · rename_i set after hset
      cases h
      rw [countFrom, skipSet_of_readSet hset]
      exact ⟨q, n, .refl q, by omega, rfl⟩
    · cases h
  · cases h
    obtain ⟨q', hq', heq⟩ := countFrom_plain first q n (by decide : (46 : UInt8) ≠ 37) (by decide) rest
    exact ⟨q', n, hq', by omega, heq⟩
  · rename_i c tail hsingle hescape hset hany
    cases h
    obtain ⟨q', hq', heq⟩ := countFrom_byte first q n c rest hescape hset
    exact ⟨q', n, hq', by omega, heq⟩
  · cases h

/-- A suffix after a class is counted as what it is. -/
theorem scan_readSuffix (q : Quantifiers) (k : CharClass) (hn : cs.length ≤ n) :
    ∃ q' n', (readSuffix cs).2.length ≤ n' ∧ Covers q [.single k (readSuffix cs).1] q' ∧
      countFrom false q n cs = countFrom false q' n' (readSuffix cs).2 := by
  fun_cases readSuffix cs with
  | case5 => exact ⟨q, n, hn, covers_of_within rfl rfl (.refl q), rfl⟩
  | case1 rest =>
    obtain _ | n := n
    · simp at hn
    · exact ⟨q.optional, n, Nat.le_of_succ_le_succ hn, ⟨Nat.le_refl _, Nat.le_refl _⟩, rfl⟩
  | case2 rest | case3 rest | case4 rest =>
    obtain _ | n := n
    · simp at hn
    · exact ⟨q.repeated, n, Nat.le_of_succ_le_succ hn, ⟨Nat.le_refl _, Nat.le_refl _⟩, rfl⟩

/-- After an item the scan goes on with the rest, the item counted. -/
theorem scan_readSingle (first : Bool) (q : Quantifiers) (hn : cs.length ≤ n)
    (hbalance : ∀ t, cs = 37 :: 98 :: t → False) :
    ∃ q' n', (readSingle cs).2.length ≤ n' ∧ Covers q [(readSingle cs).1] q' ∧
      (countFrom false q' n' (readSingle cs).2).Within (countFrom first q n cs) := by
  unfold readSingle
  split
  · exact ⟨q, 0, Nat.le_refl _, covers_of_within rfl rfl (.refl q), within_countFrom ..⟩
  · rename_i k rest hclass
    obtain ⟨q₁, n₁, hq₁, hn₁, hscan₁⟩ := scan_readClass first q hn hbalance hclass
    obtain ⟨q₂, n₂, hn₂, hq₂, hscan₂⟩ := scan_readSuffix q₁ k hn₁
    refine ⟨q₂, n₂, hn₂, hq₂.weaken hq₁ (.refl q₂), ?_⟩
    rw [hscan₁, hscan₂]
    exact .refl _

/-- A byte that is an item by itself, and counts for nothing. -/
theorem scan_plain (first : Bool) (q : Quantifiers) {b : UInt8} (hescape : b ≠ 37) (hset : b ≠ 91)
    (hloops : item.loops = false) (hoptions : item.isOptional = false) (hn : (b :: rest).length ≤ n) :
    ∃ q' n', rest.length ≤ n' ∧ Covers q [item] q' ∧
      (countFrom false q' n' rest).Within (countFrom first q n (b :: rest)) := by
  obtain ⟨n, rfl⟩ := Nat.exists_eq_add_of_le' (Nat.le_trans (Nat.le_add_left 1 rest.length) hn)
  obtain ⟨q', hq', hscan⟩ := countFrom_plain first q n hescape hset rest
  rw [hscan]
  exact ⟨q', n, Nat.le_of_succ_le_succ hn, covers_of_within (by simp [hloops]) (by simp [hoptions]) hq', .refl _⟩

theorem scan_readItem (first : Bool) (q : Quantifiers) (hn : cs.length ≤ n) :
    ∃ q' n', (readItem cs).2.length ≤ n' ∧ Covers q [(readItem cs).1] q' ∧
      (countFrom false q' n' (readItem cs).2).Within (countFrom first q n cs) := by
  fun_cases readItem cs with
  | case11 d rest hb hf hdigit => exact scan_readSingle first q hn (fun t ht => hb (by cases ht; rfl))
  | case12 _ _ _ _ _ hbalance => exact scan_readSingle first q hn hbalance
  -- nothing is read after these, whatever the scan still counts
  | case4 | case6 | case8 | case9 =>
    exact ⟨q, 0, Nat.le_refl _, covers_of_within rfl rfl (.refl q), within_countFrom ..⟩
  | case1 rest =>
    obtain ⟨n, rfl⟩ := Nat.exists_eq_add_of_le' (Nat.le_trans (Nat.le_add_left 2 rest.length) hn)
    obtain ⟨q₁, hq₁, hscan₁⟩ := countFrom_plain first q (n + 1) (by decide : (40 : UInt8) ≠ 37) (by decide) (41 :: rest)
    obtain ⟨q₂, hq₂, hscan₂⟩ := countFrom_plain false q₁ n (by decide : (41 : UInt8) ≠ 37) (by decide) rest
    rw [hscan₁, hscan₂]
    have hn₂ : rest.length ≤ n := Nat.le_of_succ_le_succ (Nat.le_of_succ_le_succ hn)
    exact ⟨q₂, n, hn₂, covers_of_within rfl rfl (hq₁.trans hq₂), .refl _⟩
  | case2 rest => exact scan_plain first q (by decide) (by decide) rfl rfl hn
  | case3 rest => exact scan_plain first q (by decide) (by decide) rfl rfl hn
  | case5 x y rest =>
    obtain ⟨n, rfl⟩ := Nat.exists_eq_add_of_le' (Nat.le_trans (Nat.le_add_left 1 _) hn)
    refine ⟨q.repeated, n, ?_, covers_repeated q rfl rfl, .refl _⟩
    simp only [List.length_cons] at hn ⊢
    omega
  | case7 rest set tail hset =>
    have hlength := readSet_length_lt hset
    obtain ⟨n, rfl⟩ := Nat.exists_eq_add_of_le' (Nat.le_trans (Nat.le_add_left 2 _) hn)
    refine ⟨q, n, ?_, covers_of_within rfl rfl (.refl q), ?_⟩
    · simp only [List.length_cons] at hn ⊢
      omega
    · rw [← skipSet_of_readSet hset]
      exact .refl _
  | case10 d rest hb hf hdigit =>
    obtain ⟨n, rfl⟩ := Nat.exists_eq_add_of_le' (Nat.le_trans (Nat.le_add_left 1 _) hn)
    have hcounted : isDigit d = true := hdigit
    refine ⟨q.repeated, n, ?_, covers_repeated q rfl rfl, ?_⟩
    · simp only [List.length_cons] at hn ⊢
      omega
    · rw [countFrom, if_pos hcounted]
      · exact .refl _
      · exact hb

/-! ## The scan of a pattern -/

theorem covers_countFrom (fuel : Nat) (first : Bool) (q : Quantifiers) (hn : cs.length ≤ n) :
    Covers q (itemsFrom fuel cs) (countFrom first q n cs) := by
  fun_induction itemsFrom fuel cs generalizing first q n with
  | case1 | case2 => exact covers_of_within rfl rfl (within_countFrom ..)
  | case3 fuel cs hne item rest hread ih =>
    obtain ⟨q', n', hn', hitem, hscan⟩ := scan_readItem first q hn
    rw [hread] at hn' hitem hscan
    exact hitem.cons ((ih false q' hn').weaken (.refl q') hscan)

/-- The scan takes an anchor for a byte like others. -/
theorem covers_quantifiers (p : ByteArray) : Covers {} (Pattern.ofBytes p).items (quantifiers p.toList) := by
  unfold Pattern.ofBytes quantifiers
  split
  · rename_i rest heq
    rw [heq]
    obtain ⟨q, hq, hscan⟩ := countFrom_plain true {} rest.length (by decide : (94 : UInt8) ≠ 37) (by decide) rest
    rw [List.length_cons, hscan]
    exact (covers_countFrom rest.length false q (Nat.le_refl rest.length)).weaken hq (.refl _)
  · exact covers_countFrom _ true {} (Nat.le_refl _)

theorem covers_unanchored (p : ByteArray) : Covers {} (Pattern.unanchored p).items (quantifiers p.toList) :=
  covers_countFrom _ true {} (Nat.le_refl _)

/-- Of either kind no fewer items are counted than are read, and a set ends for both at one bracket. -/
theorem quantifiers_never_undercount (p : ByteArray) :
    ((Pattern.ofBytes p).items.countP Item.loops ≤ (quantifiers p.toList).repeats ∧
      (Pattern.ofBytes p).items.countP Item.isOptional ≤ (quantifiers p.toList).optionals) ∧
    ((Pattern.unanchored p).items.countP Item.loops ≤ (quantifiers p.toList).repeats ∧
      (Pattern.unanchored p).items.countP Item.isOptional ≤ (quantifiers p.toList).optionals) ∧
    ∀ cs set rest, readSet cs = some (set, rest) → skipSet cs = rest := by
  have counted {items : List Pattern.Item} (h : Covers {} items (quantifiers p.toList)) :
      items.countP Item.loops ≤ (quantifiers p.toList).repeats ∧
        items.countP Item.isOptional ≤ (quantifiers p.toList).optionals := by
    have hloops := h.loops
    have hoptions := h.options
    simp only [Nat.zero_add] at hloops hoptions
    exact ⟨hloops, hoptions⟩
  refine ⟨counted (covers_quantifiers p), counted (covers_unanchored p), ?_⟩
  intro cs set rest hset
  exact skipSet_of_readSet hset

/-- A quantifier in a set is none; that of the set counts, and so do the balanced pair and the back reference. -/
example : quantifiers (Bytes.ofString "^([^]*%]]+)%b()%1x?").toList = ⟨3, 1⟩ := by decide +kernel

end StrategyBench.Sandbox.PatternCost
