/-
StrategyBench.Proofs.Lua.MatchCost — how many tests a match can make.

An attempt at one place goes through the items, and what is behind an item that repeats is tried for
every number of repetitions, what is behind an optional one twice (`work`). So the tests of an
attempt are no more than a product: of the places of the subject, once for each item that repeats, of two
for each optional one, and of the tests that each item makes itself (`work_le`). Those are no more than
the bytes it is written with (`weight_ofBytes_le`). A search makes an attempt at each place
(`search_tests_le`).
-/

import Mathlib.Tactic.Ring
import StrategyBench.Lua.Pattern

namespace StrategyBench.Lua.Pattern

/-! ## Counting -/

def Attempt.tests : Attempt → Nat
  | .failed t | .matched _ _ t | .faulty _ t => t

def Search.tests : Search → Nat
  | .absent t | .found _ t | .faulty _ t => t

def Suffix.repeats : Suffix → Bool
  | .star | .plus | .lazy => true
  | .once | .optional => false

/-- How many of the items repeat. -/
def repeats : List Item → Nat
  | [] => 0
  | .single _ suffix :: rest => suffix.repeats.toNat + repeats rest
  | _ :: rest => repeats rest

/-- How many of the items are optional. -/
def optionals : List Item → Nat
  | [] => 0
  | .single _ .optional :: rest => optionals rest + 1
  | _ :: rest => optionals rest

/-- The tests that items make at one place themselves: one, and one more where they repeat. -/
def weight : List Item → Nat
  | [] => 0
  | .single _ suffix :: rest => 1 + suffix.repeats.toNat + weight rest
  | _ :: rest => weight rest

theorem repeats_cons (item : Item) (items : List Item) :
    repeats (item :: items) = repeats [item] + repeats items := by
  cases item <;> simp [repeats]

theorem optionals_cons (item : Item) (items : List Item) :
    optionals (item :: items) = optionals [item] + optionals items := by
  cases item with
  | single k suffix => cases suffix <;> simp [optionals, Nat.add_comm]
  | _ => simp [optionals]

theorem weight_cons (item : Item) (rest : List Item) : weight (item :: rest) = weight [item] + weight rest := by
  cases item <;> simp [weight]

/-- The most tests of one attempt, for a subject with so many places, its end included. -/
def work (places : Nat) : List Item → Nat
  | [] => 0
  | .single _ .once :: rest => 1 + work places rest
  | .single _ .optional :: rest => 1 + 2 * work places rest
  | .single _ _ :: rest => 1 + places * (work places rest + 1)
  | _ :: rest => work places rest

variable {s : ByteArray} {k : CharClass} {items : List Item} {w places : Nat}

/-! ## One attempt -/

theorem runLength_le (s : ByteArray) (k : CharClass) (i n : Nat) : runLength s k i n ≤ n := by
  induction n generalizing i with
  | zero => exact Nat.le_refl 0
  | succ n ih =>
    simp only [runLength]
    split
    · exact Nat.succ_le_succ (ih (i + 1))
    · exact Nat.zero_le _

section Loops

variable {go : Nat → Nat → Attempt} {holds : Nat → Bool}

theorem fewer_tests_le (hgo : ∀ j t, (go j t).tests ≤ t + w) (start n t : Nat) :
    (fewer go start n t).tests ≤ t + (n + 1) * w := by
  induction n generalizing t with
  | zero => simpa [fewer] using hgo start t
  | succ n ih =>
    have hfirst := hgo (start + (n + 1)) t
    simp only [fewer]
    split
    · rename_i t' hfailed
      rw [hfailed] at hfirst
      calc (fewer go start n t').tests ≤ t' + (n + 1) * w := ih t'
        _ ≤ t + w + (n + 1) * w := Nat.add_le_add_right hfirst _
        _ = t + (n + 1 + 1) * w := by ring
    · exact Nat.le_trans hfirst (Nat.add_le_add_left (Nat.le_mul_of_pos_left w (Nat.succ_pos _)) t)

theorem more_tests_le (hgo : ∀ j t, (go j t).tests ≤ t + w) (n i t : Nat) :
    (more go holds n i t).tests ≤ t + n * (w + 1) := by
  induction n generalizing i t with
  | zero => simp [more, Attempt.tests]
  | succ n ih =>
    have hfirst := hgo i t
    simp only [more]
    split
    · rename_i t' hfailed
      rw [hfailed] at hfirst
      simp only [Attempt.tests] at hfirst
      split
      · calc (more go holds n (i + 1) (t' + 1)).tests ≤ t' + 1 + n * (w + 1) := ih ..
          _ ≤ t + w + 1 + n * (w + 1) := by omega
          _ = t + (n + 1) * (w + 1) := by ring
      · calc t' + 1 ≤ t + (w + 1) := by omega
          _ ≤ t + (n + 1) * (w + 1) := Nat.add_le_add_left (Nat.le_mul_of_pos_left _ (Nat.succ_pos n)) t
    · calc (go i t).tests ≤ t + w := hfirst
        _ ≤ t + (w + 1) := by omega
        _ ≤ t + (n + 1) * (w + 1) := Nat.add_le_add_left (Nat.le_mul_of_pos_left _ (Nat.succ_pos n)) t

/-- The test of the first repetition, those that find out how many there are, and what is behind each. -/
theorem fewer_tests_le_of_lt (hgo : ∀ j t, (go j t).tests ≤ t + w) {n : Nat} (hn : n < places) (start t : Nat) :
    (fewer go start n (t + 1 + (n + 1))).tests ≤ t + (1 + places * (w + 1)) :=
  calc (fewer go start n (t + 1 + (n + 1))).tests ≤ t + 1 + (n + 1) + (n + 1) * w := fewer_tests_le hgo ..
    _ = t + (1 + (n + 1) * (w + 1)) := by ring
    _ ≤ t + (1 + places * (w + 1)) := by gcongr; exact hn

end Loops

section Single

variable {rest : List Item} {caps : Captures}

/-- One attempt at an item for single bytes, from what the attempts at the items behind take. -/
theorem attempt_single_tests_le (hbehind : ∀ d j u, (attempt s rest d j caps u).tests ≤ u + work (s.size + 1) rest)
    (suffix : Suffix) (depth i t : Nat) :
    (attempt s (.single k suffix :: rest) depth i caps t).tests ≤
      t + work (s.size + 1) (.single k suffix :: rest) := by
  have hlength (j : Nat) : runLength s k j (s.size - i) < s.size + 1 :=
    Nat.lt_succ_of_le (Nat.le_trans (runLength_le ..) (Nat.sub_le ..))
  have hplaces (n : Nat) (hn : n ≤ s.size + 1) : n * (work (s.size + 1) rest + 1) ≤
      (s.size + 1) * (work (s.size + 1) rest + 1) := Nat.mul_le_mul_right _ hn
  -- what repeats may be left out, or be found to repeat too often
  have hnone : (attempt s rest depth i caps (t + 1)).tests ≤
      t + (1 + (s.size + 1) * (work (s.size + 1) rest + 1)) := by
    have := hbehind depth i (t + 1)
    have := hplaces 1 (by omega)
    omega
  have hdeep (n : Nat) (hn : n < s.size + 1) : (Attempt.faulty tooComplex (t + 1 + (n + 1))).tests ≤
      t + (1 + (s.size + 1) * (work (s.size + 1) rest + 1)) := by
    have := hplaces (n + 1) hn
    simp only [Attempt.tests, Nat.mul_add] at this ⊢
    omega
  cases suffix with
  | once =>
    simp only [attempt, work]
    split
    · have := hbehind depth (i + 1) (t + 1)
      omega
    · simp only [Attempt.tests]
      omega
  | optional =>
    simp only [attempt, work]
    split
    · split
      · simp only [Attempt.tests]
        omega
      · have htaken := hbehind (depth - 1) (i + 1) (t + 1)
        split
        · rename_i u hfailed
          rw [hfailed, Attempt.tests] at htaken
          have := hbehind depth i u
          omega
        · omega
    · have := hbehind depth i (t + 1)
      omega
  | star =>
    simp only [attempt, work]
    split
    · split
      · exact hdeep _ (hlength i)
      · exact fewer_tests_le_of_lt (hbehind _) (hlength i) i t
    · exact hnone
  | plus =>
    simp only [attempt, work]
    split
    · split
      · exact hdeep _ (hlength (i + 1))
      · exact fewer_tests_le_of_lt (hbehind _) (hlength (i + 1)) (i + 1) t
    · simp only [Attempt.tests]
      omega
  | lazy =>
    simp only [attempt, work]
    split
    · split
      · simp only [Attempt.tests]
        omega
      · have hbound := hplaces (s.size - i + 1) (by omega)
        calc _ ≤ t + 1 + (s.size - i + 1) * (work (s.size + 1) rest + 1) := more_tests_le (hbehind _) ..
          _ ≤ _ := by omega
    · exact hnone

end Single

/-- One attempt makes no more tests than the work of its items. -/
theorem attempt_tests_le (s : ByteArray) (items : List Item) (depth i : Nat) (caps : Captures) (t : Nat) :
    (attempt s items depth i caps t).tests ≤ t + work (s.size + 1) items := by
  induction items generalizing depth i caps t with
  | nil => simp [attempt, Attempt.tests, work]
  | cons item rest ih =>
    cases item with
    -- these make no test of one item against one place
    | openCapture | positionCapture | closeCapture | subjectEnd | frontier | backReference | balance | malformed =>
      simp only [attempt, work]
      repeat' split
      all_goals first
        | exact ih ..
        | exact Nat.le_add_right _ _
    | single k suffix => exact attempt_single_tests_le (fun d j u => ih d j caps u) suffix depth i t

/-! ## A search -/

theorem searchFrom_tests_le (p : Pattern) (s : ByteArray) (i t n : Nat) :
    (searchFrom p s i t n).tests ≤ t + n * work (s.size + 1) p.items := by
  induction n generalizing i t with
  | zero => simp [searchFrom, Search.tests]
  | succ n ih =>
    have hfirst : (p.attemptAt s i t).tests ≤ t + work (s.size + 1) p.items := attempt_tests_le ..
    have hrest : t + work (s.size + 1) p.items ≤ t + (n + 1) * work (s.size + 1) p.items :=
      Nat.add_le_add_left (Nat.le_mul_of_pos_left _ (Nat.succ_pos n)) t
    simp only [searchFrom]
    split
    · rename_i hmatched
      rw [hmatched] at hfirst
      exact Nat.le_trans hfirst hrest
    · rename_i hfaulty
      rw [hfaulty] at hfirst
      exact Nat.le_trans hfirst hrest
    · rename_i u hfailed
      rw [hfailed] at hfirst
      split
      · exact Nat.le_trans hfirst hrest
      · calc (searchFrom p s (i + 1) u n).tests ≤ u + n * work (s.size + 1) p.items := ih ..
          _ ≤ t + work (s.size + 1) p.items + n * work (s.size + 1) p.items := Nat.add_le_add_right hfirst _
          _ = t + (n + 1) * work (s.size + 1) p.items := by ring

/-- A search makes one attempt at each place of the subject, its end included. -/
theorem search_tests_le (p : Pattern) (s : ByteArray) (start : Nat) :
    (p.search s start).tests ≤ (s.size + 1) * work (s.size + 1) p.items :=
  calc (p.search s start).tests ≤ 0 + (s.size + 1 - start) * work (s.size + 1) p.items := searchFrom_tests_le ..
    _ = (s.size + 1 - start) * work (s.size + 1) p.items := Nat.zero_add _
    _ ≤ _ := Nat.mul_le_mul_right _ (Nat.sub_le ..)

/-! ## The product -/

/-- What repeats is tried at every place, what is optional twice. -/
def branches (places : Nat) (items : List Item) : Nat := places ^ repeats items * 2 ^ optionals items

theorem branches_pos (hplaces : 0 < places) : 0 < branches places items :=
  Nat.mul_pos (Nat.pow_pos hplaces) (Nat.two_pow_pos _)

theorem work_le (hplaces : 0 < places) (items : List Item) :
    work places items ≤ weight items * branches places items := by
  induction items with
  | nil => exact Nat.zero_le _
  | cons item rest ih =>
    have hone : 1 ≤ branches places rest := branches_pos hplaces
    cases item with
    | openCapture | positionCapture | closeCapture | subjectEnd | frontier | backReference | balance | malformed =>
      exact ih
    | single k suffix =>
      cases suffix with
      | once =>
        calc 1 + work places rest
            ≤ branches places rest + weight rest * branches places rest := Nat.add_le_add hone ih
          _ = (1 + 0 + weight rest) * branches places rest := by ring
          _ = _ := by simp [weight, branches, repeats, optionals, Suffix.repeats]
      | optional =>
        calc 1 + 2 * work places rest
            ≤ 2 * branches places rest + 2 * (weight rest * branches places rest) :=
              Nat.add_le_add (by omega) (Nat.mul_le_mul_left 2 ih)
          _ = (1 + 0 + weight rest) * (places ^ (0 + repeats rest) * 2 ^ (optionals rest + 1)) := by
            rw [branches]
            ring
      | star | plus | lazy =>
        calc 1 + places * (work places rest + 1)
            ≤ places * branches places rest + places * (weight rest * branches places rest + branches places rest) :=
              Nat.add_le_add (Nat.mul_pos hplaces hone) (Nat.mul_le_mul_left places (Nat.add_le_add ih hone))
          _ = (1 + 1 + weight rest) * (places ^ (1 + repeats rest) * 2 ^ optionals rest) := by
            rw [branches]
            ring

/-! ## What items are written with -/

theorem setBody_length_lt {acc cs body rest : List UInt8} (h : setBody acc cs = some (body, rest)) :
    rest.length < cs.length := by
  fun_induction setBody acc cs with
  | case1 => cases h
  | case2 acc c tail ih =>
    have := ih h
    simp only [List.length_cons]
    omega
  | case3 acc c tail =>
    cases h
    exact Nat.lt_succ_self _
  | case4 acc c tail _ _ ih => exact Nat.lt_succ_of_lt (ih h)

theorem readSet_length_lt {cs rest : List UInt8} {set : CharSet} (h : readSet cs = some (set, rest)) :
    rest.length < cs.length := by
  unfold readSet at h
  split at h
  rename_i negated tail heq
  have htail : tail.length ≤ cs.length := by
    split at heq <;> cases heq
    · exact Nat.le_succ _
    · exact Nat.le_refl _
  obtain ⟨⟨body, after⟩, hbody, hafter⟩ := Option.map_eq_some_iff.mp h
  cases hafter
  exact Nat.lt_of_lt_of_le (setBody_length_lt hbody) htail

theorem readClass_length_lt {cs rest : List UInt8} (h : readClass cs = .ok (k, rest)) : rest.length < cs.length := by
  unfold readClass at h
  split at h
  · cases h
  · cases h
    exact Nat.lt_succ_of_lt (Nat.lt_succ_self _)
  · split at h
    · rename_i set after hset
      cases h
      exact Nat.lt_succ_of_lt (readSet_length_lt hset)
    · cases h
  · cases h
    exact Nat.lt_succ_self _
  · cases h
    exact Nat.lt_succ_self _
  · cases h

theorem readSuffix_length_le (cs : List UInt8) :
    (readSuffix cs).1.repeats.toNat + (readSuffix cs).2.length ≤ cs.length := by
  fun_cases readSuffix cs <;> simp [Suffix.repeats] <;> omega

theorem weight_readSingle (cs : List UInt8) :
    weight [(readSingle cs).1] + (readSingle cs).2.length ≤ cs.length := by
  unfold readSingle
  split
  · simp [weight]
  · rename_i k rest hclass
    have hlength := readClass_length_lt hclass
    have hsuffix := readSuffix_length_le rest
    simp only [weight]
    omega

theorem weight_readItem (cs : List UInt8) : weight [(readItem cs).1] + (readItem cs).2.length ≤ cs.length := by
  fun_cases readItem cs with
  | case7 tail set after hset =>
    have := readSet_length_lt hset
    simp only [weight, List.length_cons]
    omega
  | case11 | case12 => exact weight_readSingle _
  | _ =>
    simp only [weight, List.length_cons, List.length_nil]
    omega

/-- Each item is written with a byte at least, and one that repeats with two. -/
theorem weight_itemsFrom_le (fuel : Nat) (cs : List UInt8) : weight (itemsFrom fuel cs) ≤ cs.length := by
  fun_induction itemsFrom fuel cs with
  | case1 | case2 => exact Nat.zero_le _
  | case3 fuel cs hne item rest hread ih =>
    have hfirst := weight_readItem cs
    rw [hread] at hfirst
    dsimp only at hfirst
    rw [weight_cons]
    omega

theorem toList_loop_length (p : ByteArray) (i : Nat) (acc : List UInt8) (hi : i ≤ p.size) :
    (ByteArray.toList.loop p i acc).length = p.size - i + acc.length := by
  fun_induction ByteArray.toList.loop p i acc with
  | case1 i acc hlt ih =>
    rw [ih hlt, List.length_cons]
    omega
  | case2 i acc hge =>
    rw [List.length_reverse]
    omega

theorem toList_length (p : ByteArray) : p.toList.length = p.size :=
  toList_loop_length p 0 [] (Nat.zero_le _)

theorem weight_ofBytes_le (p : ByteArray) : weight (ofBytes p).items ≤ p.size := by
  rw [← toList_length p]
  unfold ofBytes
  split
  · rename_i rest heq
    rw [heq]
    exact Nat.le_succ_of_le (weight_itemsFrom_le ..)
  · exact weight_itemsFrom_le ..

/-! ## Literal items -/

/-- So many times one byte, then another. -/
def literals (a : UInt8) (m : Nat) (b : UInt8) : List Item :=
  List.replicate m (.single (.byte a) .once) ++ [.single (.byte b) .once]

section Literals

variable {a b : UInt8} (hs : ∀ i < s.size, s.get! i = a) (hab : b ≠ a)

include hs hab

/-- Where there is the first byte only, all of these items are tested up to the end. -/
theorem attempt_literals (m depth i : Nat) (caps : Captures) (t : Nat) (hi : i ≤ s.size) :
    attempt s (literals a m b) depth i caps t = .failed (t + (min m (s.size - i) + 1)) := by
  induction m generalizing i t with
  | zero =>
    have hfails : holdsAt s (.byte b) i = false := by
      rcases Nat.lt_or_ge i s.size with hlt | hge
      · simp [holdsAt, CharClass.has, hs i hlt, hab]
      · simp [holdsAt, Nat.not_lt.mpr hge]
    simp [literals, attempt, hfails]
  | succ m ih =>
    change attempt s (.single (.byte a) .once :: literals a m b) depth i caps t = _
    rw [attempt]
    split
    · rename_i hholds
      have hlt : i < s.size := by
        simp only [holdsAt, Bool.and_eq_true, decide_eq_true_eq] at hholds
        exact hholds.1
      rw [ih (i + 1) (t + 1) hlt]
      congr 1
      omega
    · rename_i hfails
      have hend : s.size - i = 0 := by
        by_contra hlt
        exact hfails (by simp [holdsAt, CharClass.has, hs i (by omega), show i < s.size by omega])
      rw [hend, Nat.min_zero]

theorem le_searchFrom_literals (m i t n : Nat) (hn : i + n = s.size + 1) :
    t + (m + 1) * (n - m) ≤ (searchFrom ⟨false, literals a m b⟩ s i t n).tests := by
  induction n generalizing i t with
  | zero => simp [searchFrom, Search.tests]
  | succ n ih =>
    have hattempt : (⟨false, literals a m b⟩ : Pattern).attemptAt s i t = .failed (t + (min m n + 1)) := by
      have hplaces : s.size - i = n := by omega
      rw [← hplaces]
      exact attempt_literals hs hab m maxDepth i #[] t (by omega)
    have hrest := ih (i + 1) (t + (min m n + 1)) (by omega)
    simp only [searchFrom, hattempt, Bool.false_eq_true, if_false]
    refine Nat.le_trans ?_ hrest
    rcases Nat.lt_or_ge n m with hlt | hge
    · rw [Nat.sub_eq_zero_of_le hlt]
      omega
    · rw [Nat.min_eq_left hge, Nat.sub_add_comm hge, Nat.mul_add]
      omega

/-- The number of items multiplies the tests, though none of them repeats. -/
theorem le_search_literals_tests (m : Nat) :
    (m + 1) * (s.size + 1 - m) ≤ ((⟨false, literals a m b⟩ : Pattern).search s 0).tests := by
  have h := le_searchFrom_literals hs hab m 0 0 (s.size + 1) (Nat.zero_add _)
  rwa [Nat.zero_add] at h

end Literals

end StrategyBench.Lua.Pattern
