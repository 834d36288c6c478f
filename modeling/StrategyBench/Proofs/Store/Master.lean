/-
StrategyBench.Proofs.Store.Master — the two records of a strategy's master agree.

The master of a strategy is kept twice: its row points to a version, and that version has a flag.
After every run both tell the version that the last `setMaster` of the strategy to succeed named,
and no version if there was none (`run_masterIs`). Writes of other strategies, writes that fail, new
versions and new content leave them alone (`Effect.masterIs`).
-/

import StrategyBench.Proofs.Store.WellFormed

namespace StrategyBench.Store

variable {s s' : Store} {now : Instant} {strategy : Int} {m : Option Int}

/-! ## What a run has set -/

/-- The writes of a run that succeed, each on the store that those before it left. -/
def successes (s : Store) : List (Instant × Write) → List Write
  | [] => []
  | (now, w) :: ws =>
    match s.attempt now w with
    | some s' => w :: s'.successes ws
    | none => s.successes ws

/-- The version that a write makes the master of the strategy. -/
def master? (strategy : Int) : Write → Option Int
  | .setMaster t version => if t = strategy then some version else none
  | _ => none

/-- The version that the last of the writes to set a master of the strategy names. -/
def lastMaster? (strategy : Int) (ws : List Write) : Option Int :=
  (ws.filterMap (master? strategy)).getLast?

theorem lastMaster?_cons (w : Write) (ws : List Write) :
    lastMaster? strategy (w :: ws) = (lastMaster? strategy ws).or (master? strategy w) := by
  unfold lastMaster?
  cases hw : master? strategy w with
  | none => rw [List.filterMap_cons_none hw, Option.or_none]
  | some v =>
    rw [List.filterMap_cons_some hw, List.getLast?_cons]
    cases (ws.filterMap (master? strategy)).getLast? <;> rfl

/-! ## The two records -/

/-- The row of the strategy points to `m`, and the flagged version of the strategy is `m`. -/
structure MasterIs (s : Store) (strategy : Int) (m : Option Int) : Prop where
  pointer : ∀ t ∈ s.strategies, t.id = strategy → t.master = m
  flags : ∀ v ∈ s.versions, v.strategy = strategy → (v.isMaster = true ↔ m = some v.id)
  /-- A master is a stored version of a stored strategy. -/
  stored : ∀ k, m = some k →
    (∃ t ∈ s.strategies, t.id = strategy) ∧ ∃ v ∈ s.versions, v.id = k ∧ v.strategy = strategy

theorem masterIs_empty (strategy : Int) : MasterIs {} strategy none where
  pointer := by simp [strategies]
  flags := by simp [versions]
  stored := by simp

theorem masterIs_withStrategy (h : WellFormed s) (hm : MasterIs s strategy m) (name : String)
    (description : Option String) :
    MasterIs (s.withStrategy (s.newStrategy now name description)) strategy m where
  pointer t ht hid := by
    rcases (mem_strategies_withStrategy h).mp ht with ht | rfl
    · exact hm.pointer t ht hid
    · -- a strategy with a master has a row already, so its id is not handed out again
      cases m with
      | none => rfl
      | some k =>
        obtain ⟨⟨u, hu, huid⟩, -⟩ := hm.stored k rfl
        have hle := h.strategyBound u hu
        have hnew : s.lastStrategy + 1 = strategy := hid
        omega
  flags := hm.flags
  stored k hk := by
    obtain ⟨⟨t, ht, hid⟩, hv⟩ := hm.stored k hk
    exact ⟨⟨t, (mem_strategies_withStrategy h).mpr (.inl ht), hid⟩, hv⟩

theorem masterIs_withVersion (h : WellFormed s) (hm : MasterIs s strategy m) (owner : Int)
    (content : Content) : MasterIs (s.withVersion (s.newVersion now owner content)) strategy m where
  pointer := hm.pointer
  flags v hv hs := by
    rcases (mem_versions_withVersion h).mp hv with hv | rfl
    · exact hm.flags v hv hs
    · have hnot : m ≠ some (s.lastVersion + 1) := by
        intro hk
        obtain ⟨-, u, hu, huid, -⟩ := hm.stored _ hk
        have hle := h.versionBound u hu
        omega
      exact ⟨fun hf => Bool.noConfusion hf, fun hk => absurd hk hnot⟩
  stored k hk := by
    obtain ⟨ht, v, hv, hid⟩ := hm.stored k hk
    exact ⟨ht, v, (mem_versions_withVersion h).mpr (.inl hv), hid⟩

theorem masterIs_revise (hm : MasterIs s strategy m) (id : Int) (content : Content) :
    MasterIs (s.revise id content now) strategy m where
  pointer := hm.pointer
  flags v' hv' hs := by
    obtain ⟨v, hv, rfl⟩ := mem_versions_revise.mp hv'
    rw [Version.revised_strategy] at hs
    rw [Version.revised_isMaster, Version.revised_id]
    exact hm.flags v hv hs
  stored k hk := by
    obtain ⟨ht, v, hv, hid, hs⟩ := hm.stored k hk
    exact ⟨ht, v.revised id content now, mem_versions_revise.mpr ⟨v, hv, rfl⟩, by simpa using hid, by simpa using hs⟩

theorem masterIs_flag_self {t : Strategy} {v : Version} (ht : t ∈ s.strategies) (hv : v ∈ s.versions)
    (hown : v.strategy = t.id) : MasterIs (s.flag t.id v.id now) t.id (some v.id) where
  pointer u' hu' hid := by
    obtain ⟨u, hu, rfl⟩ := mem_strategies_flag.mp hu'
    rw [Strategy.pointed_id] at hid
    rw [Strategy.pointed_master, if_pos hid]
  flags w' hw' hs := by
    obtain ⟨w, hw, rfl⟩ := mem_versions_flag.mp hw'
    rw [Version.flagged_strategy] at hs
    rw [Version.flagged_isMaster, if_pos hs, Version.flagged_id, decide_eq_true_eq, Option.some.injEq,
      eq_comm]
  stored k hk := by
    obtain rfl := Option.some.inj hk
    exact ⟨⟨t.pointed t.id v.id now, mem_strategies_flag.mpr ⟨t, ht, rfl⟩, by simp⟩,
      v.flagged t.id v.id now, mem_versions_flag.mpr ⟨v, hv, rfl⟩, by simp, by simpa using hown⟩

theorem masterIs_flag_other {owner version : Int} (hm : MasterIs s strategy m) (hne : owner ≠ strategy) :
    MasterIs (s.flag owner version now) strategy m where
  pointer t' ht' hid := by
    obtain ⟨t, ht, rfl⟩ := mem_strategies_flag.mp ht'
    rw [Strategy.pointed_id] at hid
    rw [Strategy.pointed_master, if_neg (by rw [hid]; exact hne.symm)]
    exact hm.pointer t ht hid
  flags v' hv' hs := by
    obtain ⟨v, hv, rfl⟩ := mem_versions_flag.mp hv'
    rw [Version.flagged_strategy] at hs
    rw [Version.flagged_isMaster, if_neg (by rw [hs]; exact hne.symm), Version.flagged_id]
    exact hm.flags v hv hs
  stored k hk := by
    obtain ⟨⟨t, ht, htid⟩, v, hv, hid, hs⟩ := hm.stored k hk
    exact ⟨⟨t.pointed owner version now, mem_strategies_flag.mpr ⟨t, ht, rfl⟩, by simpa using htid⟩,
      v.flagged owner version now, mem_versions_flag.mpr ⟨v, hv, rfl⟩, by simpa using hid, by simpa using hs⟩

/-- One write sets the master it names and keeps every other. -/
theorem Effect.masterIs {w : Write} (he : Effect s now w s') (h : WellFormed s)
    (hm : MasterIs s strategy m) : MasterIs s' strategy ((master? strategy w).or m) := by
  cases he with
  | createStrategy name description => exact masterIs_withStrategy h hm name description
  | saveVersion t content ht hfree => exact masterIs_withVersion h hm t.id content
  | updateVersion v content hv hfree => exact masterIs_revise hm v.id content
  | setMaster t v ht hv hown =>
    by_cases heq : t.id = strategy
    · subst heq
      have hself : MasterIs (s.flag t.id v.id now) t.id (some v.id) := masterIs_flag_self ht hv hown
      simpa [master?] using hself
    · have hother : MasterIs (s.flag t.id v.id now) strategy m := masterIs_flag_other hm heq
      simpa [master?, heq] using hother

/-! ## Runs -/

theorem run_masterIs_of (h : WellFormed s) (hm : MasterIs s strategy m) (writes : List (Instant × Write)) :
    MasterIs (s.run writes) strategy ((lastMaster? strategy (s.successes writes)).or m) := by
  induction writes generalizing s m with
  | nil => exact hm
  | cons w ws ih =>
    obtain ⟨now, w⟩ := w
    rw [run_cons, apply_eq_attempt]
    unfold successes
    cases ha : s.attempt now w with
    | none => exact ih h hm
    | some s₁ =>
      have he := (attempt_eq_some_iff h).mp ha
      have := ih (he.wellFormed h) (he.masterIs h hm)
      rwa [← Option.or_assoc, ← lastMaster?_cons] at this

/-- After every sequence of writes, a strategy's row and the flags of its versions tell the version
    that the last `setMaster` of it to succeed named, or none if there was no such write. -/
theorem run_masterIs (writes : List (Instant × Write)) (strategy : Int) :
    MasterIs (run {} writes) strategy (lastMaster? strategy (successes {} writes)) := by
  simpa using run_masterIs_of wellFormed_empty (masterIs_empty strategy) writes

end StrategyBench.Store
