/-
StrategyBench.Proofs.Store.WellFormed — what the writes of the store do, and what every run of them
keeps.

In a well-formed store each row is under its own id, ids are at or below the counters, every version
has a strategy, and a strategy has no code twice.

`Effect` tells what a write that succeeds does, its guards included. On a well-formed store it tells
exactly which writes succeed (`attempt_eq_some_iff`), so whatever is kept by every effect is kept by
every run (`apply_cases`). Every run from the empty store keeps it well formed (`wellFormed_run`).
-/

import StrategyBench.Proofs.Decisions
import StrategyBench.Proofs.Store.Rows
import StrategyBench.Store.Basic

namespace StrategyBench

/-! ## Rows after a write -/

/-- The row once version `id` has new content. -/
def Version.revised (id : Int) (content : Content) (now : Instant) (v : Version) : Version :=
  if v.id = id then { v with content := content, updatedAt := now } else v

/-- The row once version `master` is the master of the strategy. -/
def Version.flagged (strategy master : Int) (now : Instant) (v : Version) : Version :=
  if v.strategy = strategy ∧ v.isMaster ≠ decide (v.id = master) then
    { v with isMaster := decide (v.id = master), updatedAt := now }
  else v

/-- The row once version `master` is the master of the strategy. -/
def Strategy.pointed (strategy master : Int) (now : Instant) (t : Strategy) : Strategy :=
  if t.id = strategy then { t with master := some master, updatedAt := now } else t

section Rows

variable (id strategy master : Int) (content : Content) (now : Instant) (v : Version) (t : Strategy)

@[simp] theorem Version.revised_id : (v.revised id content now).id = v.id := by
  unfold revised; split <;> rfl

@[simp] theorem Version.revised_strategy : (v.revised id content now).strategy = v.strategy := by
  unfold revised; split <;> rfl

@[simp] theorem Version.revised_isMaster : (v.revised id content now).isMaster = v.isMaster := by
  unfold revised; split <;> rfl

theorem Version.revised_content :
    (v.revised id content now).content = if v.id = id then content else v.content := by
  unfold revised; split <;> rfl

@[simp] theorem Version.flagged_id : (v.flagged strategy master now).id = v.id := by
  unfold flagged; split <;> rfl

@[simp] theorem Version.flagged_strategy : (v.flagged strategy master now).strategy = v.strategy := by
  unfold flagged; split <;> rfl

@[simp] theorem Version.flagged_content : (v.flagged strategy master now).content = v.content := by
  unfold flagged; split <;> rfl

theorem Version.flagged_isMaster : (v.flagged strategy master now).isMaster =
    if v.strategy = strategy then decide (v.id = master) else v.isMaster := by
  unfold flagged
  by_cases hs : v.strategy = strategy
  · by_cases hm : v.isMaster = decide (v.id = master)
    · simp [hs, hm]
    · simp [hs, hm]
  · simp [hs]

@[simp] theorem Strategy.pointed_id : (t.pointed strategy master now).id = t.id := by
  unfold pointed; split <;> rfl

theorem Strategy.pointed_master : (t.pointed strategy master now).master =
    if t.id = strategy then some master else t.master := by
  unfold pointed; split <;> rfl

end Rows

namespace Store

variable {s s' : Store} {now : Instant}

/-! ## Well-formed stores -/

structure WellFormed (s : Store) : Prop where
  strategyKeys : s.strategyRows.KeyedBy Strategy.id
  strategyBound : ∀ t ∈ s.strategies, t.id ≤ s.lastStrategy
  versionKeys : s.versionRows.KeyedBy Version.id
  versionBound : ∀ v ∈ s.versions, v.id ≤ s.lastVersion
  owned : ∀ v ∈ s.versions, ∃ t ∈ s.strategies, t.id = v.strategy
  codes : ∀ v ∈ s.versions, ∀ w ∈ s.versions,
    v.strategy = w.strategy → v.content.code = w.content.code → v.id = w.id

/-- Rows are under their ids, so they stand in the order of these, and no two have one id. -/
theorem WellFormed.strategyIds (h : WellFormed s) : (s.strategies.map Strategy.id).Pairwise (· < ·) :=
  h.strategyKeys.pairwise

theorem WellFormed.versionIds (h : WellFormed s) : (s.versions.map Version.id).Pairwise (· < ·) :=
  h.versionKeys.pairwise

/-! ## Finding rows -/

theorem strategy?_eq_some_iff (h : WellFormed s) {id : Int} {t : Strategy} :
    s.strategy? id = some t ↔ t ∈ s.strategies ∧ t.id = id :=
  h.strategyKeys.get?_eq_some_iff

theorem version?_eq_some_iff (h : WellFormed s) {id : Int} {v : Version} :
    s.version? id = some v ↔ v ∈ s.versions ∧ v.id = id :=
  h.versionKeys.get?_eq_some_iff

theorem version?_of_mem (h : WellFormed s) {v : Version} (hv : v ∈ s.versions) : s.version? v.id = some v :=
  (version?_eq_some_iff h).mpr ⟨hv, rfl⟩

theorem version?_eq_none_iff (h : WellFormed s) {id : Int} :
    s.version? id = none ↔ ¬∃ v ∈ s.versions, v.id = id :=
  h.versionKeys.get?_eq_none_iff

theorem version?_foreign_iff (h : WellFormed s) {strategy id : Int} :
    (s.version? id).all (·.strategy ≠ strategy) = true ↔
      ¬∃ v ∈ s.versions, v.id = id ∧ v.strategy = strategy := by
  cases hv : s.version? id with
  | none =>
    simp only [Option.all_none, true_iff]
    rintro ⟨v, hmem, hid, -⟩
    exact (version?_eq_none_iff h).mp hv ⟨v, hmem, hid⟩
  | some v =>
    obtain ⟨hmem, hid⟩ := (version?_eq_some_iff h).mp hv
    simp only [Option.all_some, ne_eq, decide_not, Bool.not_eq_true', decide_eq_false_iff_not]
    refine not_congr ⟨fun hown => ⟨v, hmem, hid, hown⟩, ?_⟩
    rintro ⟨w, hw, hwid, hown⟩
    obtain rfl := h.versionKeys.eq_of_key_eq hw hmem (hwid.trans hid.symm)
    exact hown

theorem strategy?_isNone_iff (h : WellFormed s) {id : Int} :
    (s.strategy? id).isNone = true ↔ ¬∃ t ∈ s.strategies, t.id = id := by
  rw [Option.isNone_iff_eq_none]
  exact h.strategyKeys.get?_eq_none_iff

theorem exists_strategy? (h : WellFormed s) {id : Int} (hrow : ∃ t ∈ s.strategies, t.id = id) :
    ∃ t, s.strategy? id = some t := by
  obtain ⟨t, ht⟩ := hrow
  exact ⟨t, (strategy?_eq_some_iff h).mpr ht⟩

theorem codeTaken_eq_false_iff {strategy : Int} {code : String} {except : Option Int} :
    s.codeTaken strategy code except = false ↔
      ∀ v ∈ s.versions, v.strategy = strategy → v.content.code = code → some v.id = except := by
  simp [codeTaken, List.any_eq_false]

/-! ## What a write does -/

/-- The store after a write that succeeds. -/
def attempt (s : Store) (now : Instant) : Write → Option Store
  | .createStrategy name description => some (s.createStrategy now name description).2
  | .saveVersion strategy content => ((s.saveVersion now strategy content).map Prod.snd).toOption
  | .updateVersion id content => ((s.updateVersion now id content).map Prod.snd).toOption
  | .setMaster strategy version => (s.setMaster now strategy version).toOption

theorem apply_eq_attempt (w : Write) : s.apply now w = (s.attempt now w).getD s := by
  cases w <;> rfl

/-- The strategy that `createStrategy` adds. -/
def newStrategy (s : Store) (now : Instant) (name : String) (description : Option String) : Strategy :=
  ⟨s.lastStrategy + 1, name, description, none, now, now⟩

/-- The version that `saveVersion` adds. -/
def newVersion (s : Store) (now : Instant) (strategy : Int) (content : Content) : Version :=
  ⟨s.lastVersion + 1, strategy, content, false, now, now⟩

def withStrategy (s : Store) (t : Strategy) : Store :=
  { s with strategyRows := s.strategyRows.insert t.id t, lastStrategy := t.id }

def withVersion (s : Store) (v : Version) : Store :=
  { s with versionRows := s.versionRows.insert v.id v, lastVersion := v.id }

def revise (s : Store) (id : Int) (content : Content) (now : Instant) : Store :=
  { s with versionRows := s.versionRows.map (Version.revised id content now) }

def flag (s : Store) (strategy master : Int) (now : Instant) : Store :=
  { s with versionRows := s.versionRows.map (Version.flagged strategy master now)
           strategyRows := s.strategyRows.map (Strategy.pointed strategy master now) }

/-- An id that is handed out is above all others, so the row goes behind the others. -/
theorem strategies_withStrategy (h : WellFormed s) (name : String) (description : Option String) :
    (s.withStrategy (s.newStrategy now name description)).strategies =
      s.strategies ++ [s.newStrategy now name description] :=
  h.strategyKeys.values_insert fun t ht => Int.lt_add_one_of_le (h.strategyBound t ht)

theorem versions_withVersion (h : WellFormed s) (strategy : Int) (content : Content) :
    (s.withVersion (s.newVersion now strategy content)).versions =
      s.versions ++ [s.newVersion now strategy content] :=
  h.versionKeys.values_insert fun v hv => Int.lt_add_one_of_le (h.versionBound v hv)

theorem mem_strategies_withStrategy (h : WellFormed s) {name : String} {description : Option String} {t : Strategy} :
    t ∈ (s.withStrategy (s.newStrategy now name description)).strategies ↔
      t ∈ s.strategies ∨ t = s.newStrategy now name description := by
  rw [strategies_withStrategy h, List.mem_append, List.mem_singleton]

theorem mem_versions_withVersion (h : WellFormed s) {strategy : Int} {content : Content} {v : Version} :
    v ∈ (s.withVersion (s.newVersion now strategy content)).versions ↔
      v ∈ s.versions ∨ v = s.newVersion now strategy content := by
  rw [versions_withVersion h, List.mem_append, List.mem_singleton]

@[simp] theorem versions_revise (id : Int) (content : Content) :
    (s.revise id content now).versions = s.versions.map (Version.revised id content now) :=
  Rows.values_map _

@[simp] theorem versions_flag (strategy master : Int) :
    (s.flag strategy master now).versions = s.versions.map (Version.flagged strategy master now) :=
  Rows.values_map _

@[simp] theorem strategies_flag (strategy master : Int) :
    (s.flag strategy master now).strategies = s.strategies.map (Strategy.pointed strategy master now) :=
  Rows.values_map _

theorem mem_versions_revise {id : Int} {content : Content} {v' : Version} :
    v' ∈ (s.revise id content now).versions ↔ ∃ v ∈ s.versions, v.revised id content now = v' := by
  rw [versions_revise, List.mem_map]

theorem mem_versions_flag {strategy master : Int} {v' : Version} :
    v' ∈ (s.flag strategy master now).versions ↔ ∃ v ∈ s.versions, v.flagged strategy master now = v' := by
  rw [versions_flag, List.mem_map]

theorem mem_strategies_flag {strategy master : Int} {t' : Strategy} :
    t' ∈ (s.flag strategy master now).strategies ↔ ∃ t ∈ s.strategies, t.pointed strategy master now = t' := by
  rw [strategies_flag, List.mem_map]

/-- What a write that succeeds finds in the store, and what it leaves. -/
inductive Effect (s : Store) (now : Instant) : Write → Store → Prop
  | createStrategy (name : String) (description : Option String) :
      Effect s now (.createStrategy name description) (s.withStrategy (s.newStrategy now name description))
  | saveVersion (t : Strategy) (content : Content) (ht : t ∈ s.strategies)
      (hfree : ∀ v ∈ s.versions, v.strategy = t.id → v.content.code ≠ content.code) :
      Effect s now (.saveVersion t.id content) (s.withVersion (s.newVersion now t.id content))
  | updateVersion (v : Version) (content : Content) (hv : v ∈ s.versions)
      (hfree : ∀ w ∈ s.versions, w.strategy = v.strategy → w.content.code = content.code → w.id = v.id) :
      Effect s now (.updateVersion v.id content) (s.revise v.id content now)
  | setMaster (t : Strategy) (v : Version) (ht : t ∈ s.strategies) (hv : v ∈ s.versions)
      (hown : v.strategy = t.id) :
      Effect s now (.setMaster t.id v.id) (s.flag t.id v.id now)

theorem saveVersion_eq_ok_iff (h : WellFormed s) {strategy : Int} {content : Content} {v : Version} :
    s.saveVersion now strategy content = .ok (v, s') ↔
      (∃ t ∈ s.strategies, t.id = strategy) ∧
        (∀ w ∈ s.versions, w.strategy = strategy → w.content.code ≠ content.code) ∧
        v = s.newVersion now strategy content ∧ s' = s.withVersion v := by
  unfold saveVersion
  rw [guarded_eq_ok_iff, guarded_eq_ok_iff, strategy?_isNone_iff h, not_not, Bool.not_eq_true,
    codeTaken_eq_false_iff]
  simp only [Except.ok.injEq, Prod.mk.injEq, reduceCtorEq]
  constructor
  · rintro ⟨ht, hfree, rfl, rfl⟩
    exact ⟨ht, hfree, rfl, rfl⟩
  · rintro ⟨ht, hfree, rfl, rfl⟩
    exact ⟨ht, hfree, rfl, rfl⟩

theorem updateVersion_of_mem (h : WellFormed s) {v : Version} (hv : v ∈ s.versions) (content : Content) :
    s.updateVersion now v.id content =
      if s.codeTaken v.strategy content.code (some v.id) then .error (.versionConflict content.code)
      else .ok (v.revised v.id content now, s.revise v.id content now) := by
  have hrow : v.revised v.id content now = { v with content := content, updatedAt := now } := if_pos rfl
  unfold updateVersion
  rw [version?_of_mem h hv, hrow]
  -- the write is to the row under the id, which is the one row that `revised` changes
  simp only [h.versionKeys.modify_eq_map]
  rfl

theorem updateVersion_eq_ok_iff (h : WellFormed s) {id : Int}
    {content : Content} {v' : Version} : s.updateVersion now id content = .ok (v', s') ↔
      ∃ v ∈ s.versions, v.id = id ∧
        (∀ w ∈ s.versions, w.strategy = v.strategy → w.content.code = content.code → w.id = id) ∧
        v' = v.revised id content now ∧ s' = s.revise id content now := by
  by_cases hex : ∃ v ∈ s.versions, v.id = id
  · obtain ⟨v, hv, rfl⟩ := hex
    rw [updateVersion_of_mem h hv, guarded_eq_ok_iff, Bool.not_eq_true, codeTaken_eq_false_iff]
    simp only [Except.ok.injEq, Prod.mk.injEq, Option.some.injEq]
    constructor
    · rintro ⟨hfree, rfl, rfl⟩
      exact ⟨v, hv, rfl, hfree, rfl, rfl⟩
    · rintro ⟨w, hw, hid, hfree, rfl, rfl⟩
      obtain rfl := h.versionKeys.eq_of_key_eq hw hv hid
      exact ⟨hfree, rfl, rfl⟩
  · unfold updateVersion
    rw [(version?_eq_none_iff h).mpr hex]
    simp only [reduceCtorEq, false_iff]
    rintro ⟨v, hv, hid, -⟩
    exact hex ⟨v, hv, hid⟩

theorem setMaster_eq_flag (h : WellFormed s) (strategy version : Int) :
    s.setMaster now strategy version =
      if (s.strategy? strategy).isNone then .error (.strategyNotFound strategy)
      else if (s.version? version).all (·.strategy ≠ strategy) then .error (.versionNotFound version)
      else .ok (s.flag strategy version now) := by
  unfold setMaster
  simp only [h.strategyKeys.modify_eq_map]
  rfl

theorem setMaster_eq_ok_iff (h : WellFormed s) {strategy version : Int} :
    s.setMaster now strategy version = .ok s' ↔
      (∃ t ∈ s.strategies, t.id = strategy) ∧
        (∃ v ∈ s.versions, v.id = version ∧ v.strategy = strategy) ∧
        s' = s.flag strategy version now := by
  rw [setMaster_eq_flag h, guarded_eq_ok_iff, guarded_eq_ok_iff, strategy?_isNone_iff h, not_not,
    version?_foreign_iff h, not_not]
  simp only [Except.ok.injEq]
  constructor
  · rintro ⟨ht, hv, rfl⟩
    exact ⟨ht, hv, rfl⟩
  · rintro ⟨ht, hv, rfl⟩
    exact ⟨ht, hv, rfl⟩

theorem toOption_map_snd_eq_some_iff {ε α β : Type} {x : Except ε (α × β)} {b : β} :
    (x.map Prod.snd).toOption = some b ↔ ∃ a, x = .ok (a, b) := by
  rw [toOption_eq_some_iff]
  cases x with
  | error e => simp [Except.map]
  | ok p =>
    obtain ⟨a, b'⟩ := p
    simp [Except.map]

/-- The writes that succeed, and what each does. -/
theorem attempt_eq_some_iff (h : WellFormed s) {w : Write} :
    s.attempt now w = some s' ↔ Effect s now w s' := by
  cases w with
  | createStrategy name description =>
    constructor
    · intro he
      obtain rfl := Option.some.inj he
      exact .createStrategy name description
    · intro he
      cases he
      rfl
  | saveVersion strategy content =>
    simp only [attempt, toOption_map_snd_eq_some_iff, saveVersion_eq_ok_iff h]
    constructor
    · rintro ⟨v, ⟨t, ht, rfl⟩, hfree, rfl, rfl⟩
      exact .saveVersion t content ht hfree
    · intro he
      cases he with
      | saveVersion t content ht hfree => exact ⟨_, ⟨t, ht, rfl⟩, hfree, rfl, rfl⟩
  | updateVersion id content =>
    simp only [attempt, toOption_map_snd_eq_some_iff, updateVersion_eq_ok_iff h]
    constructor
    · rintro ⟨_, v, hv, rfl, hfree, -, rfl⟩
      exact .updateVersion v content hv hfree
    · intro he
      cases he with
      | updateVersion v content hv hfree => exact ⟨_, v, hv, rfl, hfree, rfl, rfl⟩
  | setMaster strategy version =>
    simp only [attempt, toOption_eq_some_iff, setMaster_eq_ok_iff h]
    constructor
    · rintro ⟨⟨t, ht, rfl⟩, ⟨v, hv, rfl, hown⟩, rfl⟩
      exact .setMaster t v ht hv hown
    · intro he
      cases he with
      | setMaster t v ht hv hown => exact ⟨⟨t, ht, rfl⟩, ⟨v, hv, rfl, hown⟩, rfl⟩

/-! ## What every run keeps -/

theorem wellFormed_empty : WellFormed {} where
  strategyKeys := Rows.KeyedBy.empty
  strategyBound := by simp [strategies]
  versionKeys := Rows.KeyedBy.empty
  versionBound := by simp [versions]
  owned := by simp [versions]
  codes := by simp [versions]

theorem wellFormed_withStrategy (h : WellFormed s) (name : String) (description : Option String) :
    WellFormed (s.withStrategy (s.newStrategy now name description)) where
  strategyKeys := h.strategyKeys.insert _
  strategyBound t ht := by
    rcases (mem_strategies_withStrategy h).mp ht with ht | rfl
    · exact Int.le_add_one (h.strategyBound t ht)
    · exact Int.le_refl _
  versionKeys := h.versionKeys
  versionBound := h.versionBound
  owned v hv := by
    obtain ⟨t, ht, hid⟩ := h.owned v hv
    exact ⟨t, (mem_strategies_withStrategy h).mpr (.inl ht), hid⟩
  codes := h.codes

theorem wellFormed_withVersion (h : WellFormed s) {t : Strategy} (ht : t ∈ s.strategies) {content : Content}
    (hfree : ∀ v ∈ s.versions, v.strategy = t.id → v.content.code ≠ content.code) :
    WellFormed (s.withVersion (s.newVersion now t.id content)) where
  strategyKeys := h.strategyKeys
  strategyBound := h.strategyBound
  versionKeys := h.versionKeys.insert _
  versionBound v hv := by
    rcases (mem_versions_withVersion h).mp hv with hv | rfl
    · exact Int.le_add_one (h.versionBound v hv)
    · exact Int.le_refl _
  owned v hv := by
    rcases (mem_versions_withVersion h).mp hv with hv | rfl
    · exact h.owned v hv
    · exact ⟨t, ht, rfl⟩
  codes v hv w hw hs hcode := by
    rcases (mem_versions_withVersion h).mp hv with hv | rfl <;>
      rcases (mem_versions_withVersion h).mp hw with hw | rfl
    · exact h.codes v hv w hw hs hcode
    · exact absurd hcode (hfree v hv hs)
    · exact absurd hcode.symm (hfree w hw hs.symm)
    · rfl

theorem wellFormed_revise (h : WellFormed s) {u : Version} {content : Content}
    (hfree : ∀ w ∈ s.versions, w.strategy = u.strategy → w.content.code = content.code → w.id = u.id)
    (hu : u ∈ s.versions) : WellFormed (s.revise u.id content now) where
  strategyKeys := h.strategyKeys
  strategyBound := h.strategyBound
  versionKeys := h.versionKeys.map fun v => v.revised_id _ _ _
  versionBound v' hv' := by
    obtain ⟨v, hv, rfl⟩ := mem_versions_revise.mp hv'
    rw [Version.revised_id]
    exact h.versionBound v hv
  owned v' hv' := by
    obtain ⟨v, hv, rfl⟩ := mem_versions_revise.mp hv'
    rw [Version.revised_strategy]
    exact h.owned v hv
  codes v' hv' w' hw' hs hcode := by
    obtain ⟨v, hv, rfl⟩ := mem_versions_revise.mp hv'
    obtain ⟨w, hw, rfl⟩ := mem_versions_revise.mp hw'
    simp only [Version.revised_strategy, Version.revised_content, Version.revised_id] at hs hcode ⊢
    by_cases hvu : v.id = u.id <;> by_cases hwu : w.id = u.id
    · exact hvu.trans hwu.symm
    · obtain rfl := h.versionKeys.eq_of_key_eq hv hu hvu
      simp only [if_true, hwu, if_false] at hcode
      exact absurd (hfree w hw hs.symm hcode.symm) hwu
    · obtain rfl := h.versionKeys.eq_of_key_eq hw hu hwu
      simp only [if_true, hvu, if_false] at hcode
      exact absurd (hfree v hv hs hcode) hvu
    · simp only [hvu, hwu, if_false] at hcode
      exact h.codes v hv w hw hs hcode

theorem wellFormed_flag (h : WellFormed s) (strategy master : Int) :
    WellFormed (s.flag strategy master now) where
  strategyKeys := h.strategyKeys.map fun t => t.pointed_id _ _ _
  strategyBound t' ht' := by
    obtain ⟨t, ht, rfl⟩ := mem_strategies_flag.mp ht'
    rw [Strategy.pointed_id]
    exact h.strategyBound t ht
  versionKeys := h.versionKeys.map fun v => v.flagged_id _ _ _
  versionBound v' hv' := by
    obtain ⟨v, hv, rfl⟩ := mem_versions_flag.mp hv'
    rw [Version.flagged_id]
    exact h.versionBound v hv
  owned v' hv' := by
    obtain ⟨v, hv, rfl⟩ := mem_versions_flag.mp hv'
    obtain ⟨t, ht, hid⟩ := h.owned v hv
    exact ⟨t.pointed strategy master now, mem_strategies_flag.mpr ⟨t, ht, rfl⟩, by simpa using hid⟩
  codes v' hv' w' hw' hs hcode := by
    obtain ⟨v, hv, rfl⟩ := mem_versions_flag.mp hv'
    obtain ⟨w, hw, rfl⟩ := mem_versions_flag.mp hw'
    simp only [Version.flagged_strategy, Version.flagged_content, Version.flagged_id] at hs hcode ⊢
    exact h.codes v hv w hw hs hcode

theorem Effect.wellFormed {w : Write} (he : Effect s now w s') (h : WellFormed s) : WellFormed s' := by
  cases he with
  | createStrategy name description => exact wellFormed_withStrategy h name description
  | saveVersion t content ht hfree => exact wellFormed_withVersion h ht hfree
  | updateVersion u content hu hfree => exact wellFormed_revise h hfree hu
  | setMaster t v ht hv hown => exact wellFormed_flag h t.id v.id

/-- A write that fails changes nothing, so only effects need a look. -/
theorem apply_cases (h : WellFormed s) (now : Instant) (w : Write) :
    s.attempt now w = none ∧ s.apply now w = s ∨ Effect s now w (s.apply now w) := by
  rw [apply_eq_attempt]
  cases ha : s.attempt now w with
  | none => exact .inl ⟨rfl, rfl⟩
  | some s' => exact .inr ((attempt_eq_some_iff h).mp ha)

theorem wellFormed_apply (h : WellFormed s) (now : Instant) (w : Write) : WellFormed (s.apply now w) := by
  rcases apply_cases h now w with ⟨-, heq⟩ | he
  · rwa [heq]
  · exact he.wellFormed h

/-- A version that was just saved can be made the master, and is then found with its flag. -/
theorem setMaster_of_saveVersion (h : WellFormed s) {strategy : Int} {content : Content} {v : Version}
    (hs : s.saveVersion now strategy content = .ok (v, s')) :
    s'.setMaster now strategy v.id = .ok (s'.flag strategy v.id now) ∧
      (s'.flag strategy v.id now).version? v.id = some (v.flagged strategy v.id now) := by
  obtain ⟨⟨t, ht, rfl⟩, hfree, rfl, rfl⟩ := (saveVersion_eq_ok_iff h).mp hs
  have h' : WellFormed (s.withVersion (s.newVersion now t.id content)) := wellFormed_withVersion h ht hfree
  have hmem : s.newVersion now t.id content ∈ (s.withVersion (s.newVersion now t.id content)).versions :=
    (mem_versions_withVersion h).mpr (.inr rfl)
  refine ⟨(setMaster_eq_ok_iff h').mpr ⟨⟨t, ht, rfl⟩, ⟨_, hmem, rfl, rfl⟩, rfl⟩, ?_⟩
  rw [version?_eq_some_iff (wellFormed_flag h' _ _)]
  exact ⟨mem_versions_flag.mpr ⟨_, hmem, rfl⟩, Version.flagged_id ..⟩

@[simp] theorem run_nil : s.run [] = s := rfl

@[simp] theorem run_cons (w : Instant × Write) (ws : List (Instant × Write)) :
    s.run (w :: ws) = (s.apply w.1 w.2).run ws := rfl

theorem wellFormed_run_of (h : WellFormed s) (writes : List (Instant × Write)) :
    WellFormed (s.run writes) := by
  induction writes generalizing s with
  | nil => exact h
  | cons w ws ih => exact ih (wellFormed_apply h w.1 w.2)

theorem wellFormed_run (writes : List (Instant × Write)) : WellFormed (run {} writes) :=
  wellFormed_run_of wellFormed_empty writes

/-- A store that some sequence of writes leads to. -/
def Reachable (s : Store) : Prop := ∃ writes, s = run {} writes

theorem Reachable.wellFormed (h : s.Reachable) : WellFormed s := by
  obtain ⟨writes, rfl⟩ := h
  exact wellFormed_run writes

end Store
end StrategyBench
