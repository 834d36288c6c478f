/-
StrategyBench.Proofs.Store.Restriction — the part of a store that belongs to one strategy.

`only` keeps the rows of a strategy and the counters, `others` are the rows that it leaves out. What
the store reads for a strategy is there in its part (`version?_only` tells what else is not), and a
write that is addressed to the strategy does to the part what it does to the store
(`saveVersion_only`, `updateVersion_only`, `setMaster_only`) and leaves the others alone.

Two stores agree on a strategy when their parts are the same, and on well-formed stores only then
(`agreeOn_of_only_eq`, `AgreeOn.only_eq`).
-/

import StrategyBench.Proofs.Store.WellFormed
import StrategyBench.Store.Lifecycle

namespace StrategyBench.Store

variable {s s' : Store} {now : Instant} {strategy : Int}

/-! ## The part of a strategy -/

/-- The store with the rows of one strategy alone. -/
def only (s : Store) (strategy : Int) : Store :=
  { s with strategyRows := s.strategyRows.filter (·.id = strategy)
           versionRows := s.versionRows.filter (·.strategy = strategy) }

/-- The rows of every other strategy. -/
def others (s : Store) (strategy : Int) : List Strategy × List Version :=
  (s.strategies.filter (·.id ≠ strategy), s.versions.filter (·.strategy ≠ strategy))

@[simp] theorem strategies_only : (s.only strategy).strategies = s.strategies.filter (·.id = strategy) :=
  Rows.values_filter _

@[simp] theorem versions_only : (s.only strategy).versions = s.versions.filter (·.strategy = strategy) :=
  Rows.values_filter _

theorem mem_versions_only {v : Version} : v ∈ (s.only strategy).versions ↔ v ∈ s.versions ∧ v.strategy = strategy := by
  simp

theorem mem_strategies_only {t : Strategy} :
    t ∈ (s.only strategy).strategies ↔ t ∈ s.strategies ∧ t.id = strategy := by
  simp

theorem WellFormed.only (h : WellFormed s) (strategy : Int) : WellFormed (s.only strategy) where
  strategyKeys := h.strategyKeys.filter _
  strategyBound t ht := h.strategyBound t (mem_strategies_only.mp ht).1
  versionKeys := h.versionKeys.filter _
  versionBound v hv := h.versionBound v (mem_versions_only.mp hv).1
  owned v hv := by
    obtain ⟨hmem, hs⟩ := mem_versions_only.mp hv
    obtain ⟨t, ht, hid⟩ := h.owned v hmem
    exact ⟨t, mem_strategies_only.mpr ⟨ht, hid.trans hs⟩, hid⟩
  codes v hv w hw := h.codes v (mem_versions_only.mp hv).1 w (mem_versions_only.mp hw).1

/-! ## Reading -/

theorem strategy?_only (h : WellFormed s) : (s.only strategy).strategy? strategy = s.strategy? strategy := by
  ext t
  rw [strategy?_eq_some_iff (h.only strategy), strategy?_eq_some_iff h, mem_strategies_only]
  tauto

theorem versionsOf_only : (s.only strategy).versionsOf strategy = s.versionsOf strategy := by
  simp [versionsOf]

theorem codeTaken_only (code : String) (except : Option Int) :
    (s.only strategy).codeTaken strategy code except = s.codeTaken strategy code except := by
  simp only [codeTaken, versions_only, List.any_filter]
  congr 1
  funext v
  by_cases hs : v.strategy = strategy <;> simp [hs]

/-- A version of another strategy is like one that is not there. -/
theorem version?_only (h : WellFormed s) (strategy id : Int) :
    (s.only strategy).version? id = (s.version? id).filter (·.strategy = strategy) := by
  ext v
  rw [version?_eq_some_iff (h.only strategy), Option.filter_eq_some_iff, version?_eq_some_iff h,
    mem_versions_only, decide_eq_true_eq]
  tauto

theorem version?_only_of_owned (h : WellFormed s) {id : Int}
    (hown : ∃ v ∈ s.versions, v.id = id ∧ v.strategy = strategy) :
    (s.only strategy).version? id = s.version? id := by
  obtain ⟨v, hv, rfl, hs⟩ := hown
  rw [version?_only h, version?_of_mem h hv]
  simp [hs]

theorem ensureCodeAvailable_only (code : String) (except : Option Int) :
    (s.only strategy).ensureCodeAvailable strategy code except = s.ensureCodeAvailable strategy code except := by
  unfold ensureCodeAvailable
  rw [versionsOf_only]

theorem nextCode_only (h : WellFormed s) (date : Date) :
    (s.only strategy).nextCode strategy date = s.nextCode strategy date := by
  unfold nextCode
  rw [strategy?_only h, versionsOf_only]

/-! ## Rows that a write leaves alone -/

/-- Rows that a change does not concern stay as they are. -/
theorem filter_ne_map_key {α β : Type} [DecidableEq β] {key : α → β} {f : α → α} {k : β} {l : List α}
    (hf : ∀ a, key (f a) = key a) (hne : ∀ a ∈ l, key a ≠ k → f a = a) :
    (l.map f).filter (key · ≠ k) = l.filter (key · ≠ k) := by
  rw [List.filter_map]
  have hkeys : l.filter ((fun a => decide (key a ≠ k)) ∘ f) = l.filter (key · ≠ k) :=
    List.filter_congr fun a _ => by simp [hf]
  rw [hkeys, List.map_congr_left fun a ha => ?_, List.map_id]
  obtain ⟨hmem, hk⟩ := List.mem_filter.mp ha
  exact hne a hmem (by simpa using hk)

theorem only_withVersion (content : Content) :
    (s.withVersion (s.newVersion now strategy content)).only strategy =
      (s.only strategy).withVersion ((s.only strategy).newVersion now strategy content) := by
  have hrows : (s.withVersion (s.newVersion now strategy content)).versionRows.filter (·.strategy = strategy) =
      (s.versionRows.filter (·.strategy = strategy)).insert (s.lastVersion + 1) (s.newVersion now strategy content) :=
    Rows.filter_insert (decide_eq_true rfl)
  simp only [only, hrows]
  rfl

theorem others_withVersion (h : WellFormed s) (content : Content) :
    (s.withVersion (s.newVersion now strategy content)).others strategy = s.others strategy := by
  simp only [others, versions_withVersion h]
  simp [withVersion, strategies, newVersion]

theorem only_revise (id : Int) (content : Content) :
    (s.revise id content now).only strategy = (s.only strategy).revise id content now := by
  have hrows : (s.revise id content now).versionRows.filter (·.strategy = strategy) =
      (s.versionRows.filter (·.strategy = strategy)).map (Version.revised id content now) :=
    Rows.filter_map fun v => by rw [Version.revised_strategy]
  simp only [only, hrows]
  rfl

theorem others_revise (h : WellFormed s) {v : Version} (hv : v ∈ s.versions) (hs : v.strategy = strategy)
    (content : Content) : (s.revise v.id content now).others strategy = s.others strategy := by
  have hrows : (s.revise v.id content now).versions.filter (·.strategy ≠ strategy) =
      s.versions.filter (·.strategy ≠ strategy) := by
    rw [versions_revise]
    refine filter_ne_map_key (fun w => w.revised_strategy _ _ _) fun w hw hne => ?_
    refine if_neg fun hid => hne ?_
    rw [h.versionKeys.eq_of_key_eq hw hv hid, hs]
  exact Prod.ext rfl hrows

theorem only_flag (master : Int) :
    (s.flag strategy master now).only strategy = (s.only strategy).flag strategy master now := by
  have hversions : (s.flag strategy master now).versionRows.filter (·.strategy = strategy) =
      (s.versionRows.filter (·.strategy = strategy)).map (Version.flagged strategy master now) :=
    Rows.filter_map fun v => by rw [Version.flagged_strategy]
  have hstrategies : (s.flag strategy master now).strategyRows.filter (·.id = strategy) =
      (s.strategyRows.filter (·.id = strategy)).map (Strategy.pointed strategy master now) :=
    Rows.filter_map fun t => by rw [Strategy.pointed_id]
  simp only [only, hversions, hstrategies]
  rfl

theorem others_flag (master : Int) : (s.flag strategy master now).others strategy = s.others strategy := by
  simp only [others, versions_flag, strategies_flag]
  refine Prod.ext ?_ ?_
  · refine filter_ne_map_key (fun t => t.pointed_id _ _ _) fun t _ hne => ?_
    exact if_neg hne
  · refine filter_ne_map_key (fun v => v.flagged_strategy _ _ _) fun v _ hne => ?_
    exact if_neg fun hc => hne hc.1

/-! ## Writing -/

/-- What a write answers, with the part of a strategy in place of the store. -/
def partOf {ε α : Type} (strategy : Int) (r : Except ε (α × Store)) : Except ε (α × Store) :=
  r.map fun p => (p.1, p.2.only strategy)

theorem saveVersion_only (h : WellFormed s) (content : Content) :
    (s.only strategy).saveVersion now strategy content = partOf strategy (s.saveVersion now strategy content) := by
  have hrow : (s.only strategy).saveVersion now strategy content =
      if (s.strategy? strategy).isNone then .error (.strategyNotFound strategy)
      else if s.codeTaken strategy content.code none then .error (.versionConflict content.code)
      else .ok (s.newVersion now strategy content,
        (s.only strategy).withVersion ((s.only strategy).newVersion now strategy content)) := by
    rw [← strategy?_only h, ← codeTaken_only]
    rfl
  rw [hrow, ← only_withVersion]
  unfold saveVersion partOf
  split
  · rfl
  · split <;> rfl

theorem updateVersion_only (h : WellFormed s) {v : Version} (hv : v ∈ s.versions) (hs : v.strategy = strategy)
    (content : Content) :
    (s.only strategy).updateVersion now v.id content = partOf strategy (s.updateVersion now v.id content) := by
  subst hs
  rw [updateVersion_of_mem h hv,
    updateVersion_of_mem (h.only v.strategy) (mem_versions_only.mpr ⟨hv, rfl⟩), codeTaken_only,
    ← only_revise]
  unfold partOf
  split <;> rfl

theorem setMaster_only (h : WellFormed s) (version : Int) :
    ((s.only strategy).setMaster now strategy version) =
      (s.setMaster now strategy version).map fun s' => s'.only strategy := by
  have hforeign : ((s.only strategy).version? version).all (·.strategy ≠ strategy) =
      (s.version? version).all (·.strategy ≠ strategy) := by
    rw [version?_only h]
    cases s.version? version with
    | none => rfl
    | some v => by_cases hs : v.strategy = strategy <;> simp [Option.filter, hs]
  rw [setMaster_eq_flag (h.only strategy), setMaster_eq_flag h, strategy?_only h, hforeign, ← only_flag]
  split
  · rfl
  · split <;> rfl

/-! ## Stores that agree on a strategy -/

/-- The stores have the same row and the same versions of a strategy, and hand out the same ids next. -/
structure AgreeOn (strategy : Int) (s s' : Store) : Prop where
  row : ∀ t : Strategy, t.id = strategy → (t ∈ s.strategies ↔ t ∈ s'.strategies)
  versions : ∀ v : Version, v.strategy = strategy → (v ∈ s.versions ↔ v ∈ s'.versions)
  lastStrategy : s.lastStrategy = s'.lastStrategy
  lastVersion : s.lastVersion = s'.lastVersion

theorem AgreeOn.only_eq (hag : AgreeOn strategy s s') (h : WellFormed s) (h' : WellFormed s') :
    s.only strategy = s'.only strategy := by
  have hrow : ∀ t, t ∈ (s.only strategy).strategies ↔ t ∈ (s'.only strategy).strategies := fun t => by
    rw [mem_strategies_only, mem_strategies_only]
    exact and_congr_left (hag.row t)
  have hmem : ∀ v, v ∈ (s.only strategy).versions ↔ v ∈ (s'.only strategy).versions := fun v => by
    rw [mem_versions_only, mem_versions_only]
    exact and_congr_left (hag.versions v)
  have hstrategies : (s.only strategy).strategyRows = (s'.only strategy).strategyRows :=
    (h.only strategy).strategyKeys.ext (h'.only strategy).strategyKeys hrow
  have hversions : (s.only strategy).versionRows = (s'.only strategy).versionRows :=
    (h.only strategy).versionKeys.ext (h'.only strategy).versionKeys hmem
  calc s.only strategy
      = ⟨(s.only strategy).strategyRows, (s.only strategy).versionRows, s.lastStrategy, s.lastVersion⟩ := rfl
    _ = ⟨(s'.only strategy).strategyRows, (s'.only strategy).versionRows, s'.lastStrategy, s'.lastVersion⟩ := by
        rw [hstrategies, hversions, hag.lastStrategy, hag.lastVersion]
    _ = s'.only strategy := rfl

theorem mem_iff_of_filter_eq {α : Type} {key : α → Int} {k : Int} {l l' : List α}
    (h : l.filter (key · = k) = l'.filter (key · = k)) (a : α) (ha : key a = k) : a ∈ l ↔ a ∈ l' := by
  have hmem : a ∈ l.filter (key · = k) ↔ a ∈ l'.filter (key · = k) := by rw [h]
  simpa [ha] using hmem

theorem agreeOn_of_only_eq (heq : s.only strategy = s'.only strategy) : AgreeOn strategy s s' := by
  obtain ⟨-, -, hlastStrategy, hlastVersion⟩ := Store.mk.inj heq
  refine ⟨mem_iff_of_filter_eq ?_, mem_iff_of_filter_eq ?_, hlastStrategy, hlastVersion⟩
  · rw [← strategies_only, heq, strategies_only]
  · rw [← versions_only, heq, versions_only]

/-- A change that keeps the key of every row keeps which rows of one key there are in both. -/
theorem mem_map_key_congr {α : Type} {key : α → Int} {f : α → α} {k : Int} {l l' : List α}
    (hf : ∀ a, key (f a) = key a) (h : ∀ a, key a = k → (a ∈ l ↔ a ∈ l')) (b : α) (hb : key b = k) :
    b ∈ l.map f ↔ b ∈ l'.map f := by
  simp only [List.mem_map]
  constructor
  · rintro ⟨a, ha, rfl⟩
    exact ⟨a, (h a ((hf a).symm.trans hb)).mp ha, rfl⟩
  · rintro ⟨a, ha, rfl⟩
    exact ⟨a, (h a ((hf a).symm.trans hb)).mpr ha, rfl⟩

end StrategyBench.Store
