/-
StrategyBench.Proofs.Store.Codes — free codes.

Whether a code is free is asked of the listed versions of a strategy before a write, and of all
versions by the write itself; both find the same versions (`ensureCodeAvailable_eq`).

Versions have the ids from one on, so there are as many as the counter says (`Reachable.lastVersion_eq`).
Ids that are handed out are below the greatest number of a code, so that the next generated code is
free as well (`nextCode_free`).
-/

import StrategyBench.Proofs.Store.WellFormed
import StrategyBench.Proofs.Version.Sequence
import StrategyBench.Store.Lifecycle

namespace StrategyBench.Store

variable {s s' : Store} {now : Instant} {strategy : Int} {code : String} {except : Option Int}

/-! ## Two views of the versions -/

theorem mem_versionsOf {v : Version} : v ∈ s.versionsOf strategy ↔ v ∈ s.versions ∧ v.strategy = strategy := by
  rw [versionsOf, List.mem_mergeSort, List.mem_filter, decide_eq_true_eq]

/-- The listed versions have a code where the write finds it taken. -/
theorem ensureCodeAvailable_eq : s.ensureCodeAvailable strategy code except =
    if s.codeTaken strategy code except then .error (.versionConflict code) else .ok () := by
  have hsame : ((s.versionsOf strategy).any fun v => v.content.code = code && some v.id ≠ except) =
      s.codeTaken strategy code except := by
    rw [Bool.eq_iff_iff, List.any_eq_true, codeTaken, List.any_eq_true]
    constructor
    · rintro ⟨v, hv, hcode⟩
      obtain ⟨hmem, hs⟩ := mem_versionsOf.mp hv
      exact ⟨v, hmem, by simpa [hs] using hcode⟩
    · rintro ⟨v, hmem, hcode⟩
      have hs : v.strategy = strategy := by simp at hcode; exact hcode.1.1
      exact ⟨v, mem_versionsOf.mpr ⟨hmem, hs⟩, by simpa [hs] using hcode⟩
  rw [ensureCodeAvailable, hsame]

theorem ensureCodeAvailable_eq_ok_iff : s.ensureCodeAvailable strategy code except = .ok () ↔
    ∀ v ∈ s.versions, v.strategy = strategy → v.content.code = code → some v.id = except := by
  rw [ensureCodeAvailable_eq, guarded_eq_ok_iff, Bool.not_eq_true, codeTaken_eq_false_iff, and_iff_left rfl]

/-! ## As many versions as ids -/

theorem Effect.lastVersion_eq {w : Write} (he : Effect s now w s') (h : WellFormed s)
    (hs : s.lastVersion = s.versions.length) : s'.lastVersion = s'.versions.length := by
  cases he with
  | createStrategy name description => exact hs
  | saveVersion t content ht hfree =>
    have hnext : (s.withVersion (s.newVersion now t.id content)).lastVersion = s.lastVersion + 1 := rfl
    rw [versions_withVersion h, List.length_append, List.length_singleton]
    omega
  | updateVersion v content hv hfree =>
    rw [versions_revise, List.length_map]
    exact hs
  | setMaster t v ht hv hown =>
    rw [versions_flag, List.length_map]
    exact hs

theorem run_lastVersion_eq (h : WellFormed s) (hs : s.lastVersion = s.versions.length)
    (writes : List (Instant × Write)) : (s.run writes).lastVersion = (s.run writes).versions.length := by
  induction writes generalizing s with
  | nil => exact hs
  | cons w ws ih =>
    have hstep : (s.apply w.1 w.2).lastVersion = (s.apply w.1 w.2).versions.length := by
      rcases apply_cases h w.1 w.2 with ⟨-, heq⟩ | he
      · rwa [heq]
      · exact he.lastVersion_eq h hs
    exact ih (wellFormed_apply h w.1 w.2) hstep

theorem Reachable.lastVersion_eq (h : s.Reachable) : s.lastVersion = s.versions.length := by
  obtain ⟨writes, rfl⟩ := h
  exact run_lastVersion_eq wellFormed_empty rfl writes

/-! ## The next code -/

/-- While there are fewer versions than numbers, the next code of a strategy is one that it does not have. -/
theorem nextCode_free (h : WellFormed s) (hrow : ∃ t ∈ s.strategies, t.id = strategy)
    (hfew : s.versions.length < VersionCode.maxSequence) (date : Date) :
    ∃ code, s.nextCode strategy date = .ok code ∧
      ∀ v ∈ s.versions, v.strategy = strategy → v.content.code ≠ code := by
  have hthere : ¬(s.strategy? strategy).isNone = true := fun hnone => (strategy?_isNone_iff h).mp hnone hrow
  have hcodes : ((s.versionsOf strategy).map (·.content.code)).toFinset.card ≤ s.versions.length :=
    calc ((s.versionsOf strategy).map (·.content.code)).toFinset.card
        ≤ ((s.versionsOf strategy).map (·.content.code)).length := List.toFinset_card_le _
      _ = (s.versions.filter (·.strategy = strategy)).length := by
        rw [List.length_map, versionsOf, List.length_mergeSort]
      _ ≤ s.versions.length := List.length_filter_le _ _
  rcases VersionCode.generate_cases date ((s.versionsOf strategy).map (·.content.code)) with
    ⟨n, -, -, hcode, hfree, -⟩ | ⟨hmany, -⟩
  · refine ⟨_, if_neg hthere, fun v hv hs heq => hfree ?_⟩
    rw [← hcode, ← heq]
    exact List.mem_map_of_mem (f := fun v : Version => v.content.code) (mem_versionsOf.mpr ⟨hv, hs⟩)
  · omega

end StrategyBench.Store
