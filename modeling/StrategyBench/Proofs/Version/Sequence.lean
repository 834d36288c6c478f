/-
StrategyBench.Proofs.Version.Sequence — the numbers of codes that are generated one after another.

Different numbers are written differently (`write_injective`). So of one more number than there are codes
one is free, and a search for it ends there at the latest (`generate_cases`). A code that is generated is
taken for the next search, which so goes on with the next free number (`generateMany_takes_least_free`).
Numbers have 32 bits: when all of them are taken, no number is left to generate.
-/

import Mathlib.Data.Finset.Card
import StrategyBench.Version.Code

namespace StrategyBench.VersionCode

variable {date : Date} {existing : List String} {code : String} {n fuel : Nat}

/-! ## Texts of numbers -/

theorem toString_nat_injective : Function.Injective (toString : Nat → String) := by
  intro a b h
  have hdigits : Nat.toDigits 10 a = Nat.toDigits 10 b := by
    have htexts := congrArg String.toList h
    rwa [Nat.toString_eq_repr, Nat.toString_eq_repr, Nat.toList_repr, Nat.toList_repr] at htexts
  have hread := congrArg (fun ds => Nat.ofDigitChars 10 ds 0) hdigits
  simpa [Nat.ofDigitChars_toDigits] using hread

theorem write_injective (date : Date) : Function.Injective (write date) := by
  intro a b h
  exact toString_nat_injective ((String.append_right_inj _).mp h)

/-! ## One search -/

/-- A search that finds nothing has met only codes that are taken. -/
theorem taken_of_firstFree_none (h : firstFree date existing n fuel = none) :
    ∀ m, n ≤ m → m < n + fuel → write date m ∈ existing := by
  induction fuel generalizing n with
  | zero =>
    intro m hlow hhigh
    omega
  | succ fuel ih =>
    rw [firstFree] at h
    split at h
    · rename_i htaken
      intro m hlow hhigh
      rcases Nat.eq_or_lt_of_le hlow with rfl | hlow
      · exact List.contains_iff_mem.mp htaken
      · exact ih h m hlow (by omega)
    · cases h

/-- A search that finds a code finds the first one that is free. -/
theorem free_of_firstFree_some (h : firstFree date existing n fuel = some code) :
    ∃ m, n ≤ m ∧ m < n + fuel ∧ code = write date m ∧ write date m ∉ existing ∧
      ∀ l, n ≤ l → l < m → write date l ∈ existing := by
  induction fuel generalizing n with
  | zero => cases h
  | succ fuel ih =>
    rw [firstFree] at h
    split at h
    · rename_i htaken
      obtain ⟨m, hlow, hhigh, hcode, hfree, hleast⟩ := ih h
      refine ⟨m, by omega, by omega, hcode, hfree, fun l hl hlm => ?_⟩
      rcases Nat.eq_or_lt_of_le hl with rfl | hl
      · exact List.contains_iff_mem.mp htaken
      · exact hleast l hl hlm
    · rename_i hfree
      refine ⟨n, Nat.le_refl n, by omega, (Option.some.inj h).symm, ?_, fun l hl hln => ?_⟩
      · rwa [List.contains_iff_mem] at hfree
      · omega

/-- As many numbers as are taken, so many different codes there are. -/
theorem le_card_of_taken {count : Nat} (h : ∀ m, 1 ≤ m → m < 1 + count → write date m ∈ existing) :
    count ≤ existing.toFinset.card := by
  have hsubset : ((Finset.range count).image fun i => write date (1 + i)) ⊆ existing.toFinset := by
    intro code hcode
    obtain ⟨i, hi, rfl⟩ := Finset.mem_image.mp hcode
    have hcount := Finset.mem_range.mp hi
    exact List.mem_toFinset.mpr (h (1 + i) (by omega) (by omega))
  have hinjective : Function.Injective fun i => write date (1 + i) :=
    fun i j hij => Nat.add_left_cancel (write_injective date hij)
  calc count = ((Finset.range count).image fun i => write date (1 + i)).card := by
        rw [Finset.card_image_of_injective _ hinjective, Finset.card_range]
    _ ≤ existing.toFinset.card := Finset.card_le_card hsubset

/-- The code that is generated has the least free number, at most one more than there are codes, unless all
numbers are taken. -/
theorem generate_cases (date : Date) (existing : List String) :
    (∃ n, 1 ≤ n ∧ n ≤ existing.toFinset.card + 1 ∧ generate existing date = write date n ∧
        write date n ∉ existing ∧ ∀ m, 1 ≤ m → m < n → write date m ∈ existing) ∨
      maxSequence ≤ existing.toFinset.card ∧ ∀ m, 1 ≤ m → m ≤ maxSequence → write date m ∈ existing := by
  rw [generate]
  cases hsearch : firstFree date existing 1 (min (existing.length + 1) maxSequence) with
  | some code =>
    obtain ⟨n, hlow, -, rfl, hfree, hleast⟩ := free_of_firstFree_some hsearch
    have hcard : n - 1 ≤ existing.toFinset.card :=
      le_card_of_taken fun m hm hmn => hleast m hm (by omega)
    exact .inl ⟨n, hlow, by omega, rfl, hfree, hleast⟩
  | none =>
    right
    have htaken := taken_of_firstFree_none hsearch
    have hcard := le_card_of_taken htaken
    have hlength := existing.toFinset_card_le
    have hall : min (existing.length + 1) maxSequence = maxSequence := by omega
    rw [hall] at htaken hcard
    exact ⟨hcard, fun m hlow hhigh => htaken m hlow (by omega)⟩

/-! ## One search after another -/

/-- The numbers of codes that are free among some, from the least on, in order. -/
structure LeastFree (date : Date) (existing : List String) (ns : List Nat) : Prop where
  ascending : ns.Pairwise (· < ·)
  free : ∀ n ∈ ns, 1 ≤ n ∧ write date n ∉ existing
  least : ∀ m, 1 ≤ m → write date m ∉ existing → m ∉ ns → ∀ n ∈ ns, n < m

theorem leastFree_nil (date : Date) (existing : List String) : LeastFree date existing [] :=
  ⟨.nil, by simp, by simp⟩

/-- The least free number, and the least free ones once it is taken too. -/
theorem LeastFree.cons {ns : List Nat} (hn : 1 ≤ n) (hfree : write date n ∉ existing)
    (hleast : ∀ m, 1 ≤ m → m < n → write date m ∈ existing)
    (hns : LeastFree date (write date n :: existing) ns) : LeastFree date existing (n :: ns) where
  ascending := by
    refine List.pairwise_cons.mpr ⟨fun m hm => ?_, hns.ascending⟩
    obtain ⟨hm1, hmfree⟩ := hns.free m hm
    rw [List.mem_cons, not_or] at hmfree
    have hne : m ≠ n := fun heq => hmfree.1 (by rw [heq])
    have hnot : ¬m < n := fun hlt => hmfree.2 (hleast m hm1 hlt)
    omega
  free m hm := by
    rcases List.mem_cons.mp hm with rfl | hm
    · exact ⟨hn, hfree⟩
    · obtain ⟨hm1, hmfree⟩ := hns.free m hm
      exact ⟨hm1, fun htaken => hmfree (List.mem_cons_of_mem _ htaken)⟩
  least m hm hmfree hmem l hl := by
    rw [List.mem_cons, not_or] at hmem
    rcases List.mem_cons.mp hl with rfl | hl
    · have hnot : ¬m < l := fun hlt => hmfree (hleast m hm hlt)
      omega
    · refine hns.least m hm (fun htaken => ?_) hmem.2 l hl
      rcases List.mem_cons.mp htaken with heq | htaken
      · exact hmem.1 (write_injective date heq)
      · exact hmfree htaken

theorem length_generateMany (date : Date) (existing : List String) (k : Nat) :
    (generateMany existing date k).length = k := by
  induction k generalizing existing with
  | zero => rfl
  | succ k ih => rw [generateMany, List.length_cons, ih]

theorem LeastFree.nodup_codes {ns : List Nat} (h : LeastFree date existing ns) : (ns.map (write date)).Nodup :=
  List.Nodup.map (write_injective date) (h.ascending.imp Nat.ne_of_lt)

/-- What is generated goes through the free numbers, as long as there are any of 32 bits. -/
theorem generateMany_cases (date : Date) (existing : List String) (k : Nat) :
    ∃ (ns : List Nat) (rest : List String),
      generateMany existing date k = ns.map (write date) ++ rest ∧ LeastFree date existing ns ∧
      (∀ i (hi : i < ns.length), ns[i] ≤ existing.toFinset.card + i + 1) ∧
      (rest ≠ [] → maxSequence < existing.toFinset.card + k ∧
        ∀ m, 1 ≤ m → m ≤ maxSequence → write date m ∈ existing ∨ m ∈ ns) := by
  induction k generalizing existing with
  | zero => exact ⟨[], [], rfl, leastFree_nil date existing, by simp, by simp⟩
  | succ k ih =>
    rw [generateMany]
    rcases generate_cases date existing with ⟨n, hn, hbound, hcode, hfree, hleast⟩ | ⟨hmany, hall⟩
    · rw [hcode]
      obtain ⟨ns, rest, hcodes, hns, hbounds, hrest⟩ := ih (write date n :: existing)
      have hcard : (write date n :: existing).toFinset.card = existing.toFinset.card + 1 := by
        rw [List.toFinset_cons, Finset.card_insert_of_notMem (by simpa using hfree)]
      rw [hcard] at hbounds hrest
      refine ⟨n :: ns, rest, by rw [hcodes, List.map_cons, List.cons_append], .cons hn hfree hleast hns, ?_, ?_⟩
      · intro i hi
        cases i with
        | zero => exact hbound
        | succ i =>
          have := hbounds i (by simpa using hi)
          rw [List.getElem_cons_succ]
          omega
      · intro hne
        obtain ⟨hmany, htaken⟩ := hrest hne
        refine ⟨by omega, fun m hlow hhigh => ?_⟩
        rcases htaken m hlow hhigh with htaken | hm
        · rcases List.mem_cons.mp htaken with heq | htaken
          · exact .inr (write_injective date heq ▸ List.mem_cons_self)
          · exact .inl htaken
        · exact .inr (List.mem_cons_of_mem n hm)
    · refine ⟨[], _, rfl, leastFree_nil date existing, by simp, fun _ => ⟨by omega, fun m hlow hhigh => ?_⟩⟩
      exact .inl (hall m hlow hhigh)

/-- Codes that are generated one after another have the least free numbers, in order, and each search is over at
one more number than there are codes by then. What follows, if anything does, is generated when no number of 32
bits is left; so nothing does as long as there are fewer codes than numbers. -/
theorem generateMany_takes_least_free (date : Date) (existing : List String) (k : Nat) :
    ∃ (ns : List Nat) (rest : List String),
      generateMany existing date k = ns.map (fun n => "v" ++ date.compact ++ "." ++ toString n) ++ rest ∧
      LeastFree date existing ns ∧
      (ns.map (write date)).Nodup ∧ (∀ code ∈ ns.map (write date), code ∉ existing) ∧
      (∀ i (hi : i < ns.length), ns[i] ≤ existing.toFinset.card + i + 1) ∧
      (existing.toFinset.card + k ≤ maxSequence → rest = [] ∧ ns.length = k) ∧
      (rest ≠ [] → ∀ m, 1 ≤ m → m ≤ maxSequence → write date m ∈ existing ∨ m ∈ ns) := by
  obtain ⟨ns, rest, hcodes, hns, hbounds, hrest⟩ := generateMany_cases date existing k
  refine ⟨ns, rest, hcodes, hns, hns.nodup_codes, ?_, hbounds, ?_, fun hne => (hrest hne).2⟩
  · intro code hcode
    obtain ⟨n, hn, rfl⟩ := List.mem_map.mp hcode
    exact (hns.free n hn).2
  · intro hfew
    have hnone : rest = [] := by
      by_contra hne
      have := (hrest hne).1
      omega
    have hlength := congrArg List.length hcodes
    rw [length_generateMany, hnone, List.append_nil, List.length_map] at hlength
    exact ⟨hnone, hlength.symm⟩

end StrategyBench.VersionCode
