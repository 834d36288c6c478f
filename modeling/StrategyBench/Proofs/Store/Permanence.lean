/-
StrategyBench.Proofs.Store.Permanence — rows are handed out once and stay.

A write that adds a row answers it. After every run the rows in the store are the rows that were
answered, in that order, each with the id, the strategy and the moment that it was answered with
(`run_rows`): none is lost, and none comes from elsewhere. So a longer run only puts rows behind
those of a shorter one, ids are never handed out again, and the row under an id is the row with that
id (`run_keeps_rows`).
-/

import StrategyBench.Proofs.Store.WellFormed

namespace StrategyBench

/-! ## What of a row stays -/

/-- The id of a strategy, and what it was created with. -/
def Strategy.origin (t : Strategy) : Int × String × Option String × Instant :=
  (t.id, t.name, t.description, t.createdAt)

/-- The id of a version, its strategy, and the moment it was saved at. -/
def Version.origin (v : Version) : Int × Int × Instant := (v.id, v.strategy, v.createdAt)

section Rows

variable (id strategy master : Int) (content : Content) (now : Instant) (v : Version) (t : Strategy)

@[simp] theorem Strategy.pointed_origin : (t.pointed strategy master now).origin = t.origin := by
  unfold pointed; split <;> rfl

@[simp] theorem Version.revised_origin : (v.revised id content now).origin = v.origin := by
  unfold revised; split <;> rfl

@[simp] theorem Version.flagged_origin : (v.flagged strategy master now).origin = v.origin := by
  unfold flagged; split <;> rfl

end Rows

namespace Store

variable {s s' : Store} {now : Instant}

/-! ## What writes answer -/

/-- The strategy that a write answers as a new one. -/
def created? (s : Store) (now : Instant) : Write → Option Strategy
  | .createStrategy name description => some (s.createStrategy now name description).1
  | _ => none

/-- The version that a write answers as a new one. -/
def saved? (s : Store) (now : Instant) : Write → Option Version
  | .saveVersion strategy content => ((s.saveVersion now strategy content).map Prod.fst).toOption
  | _ => none

/-- What the writes of a run answer, each on the store that those before it left. -/
def answered {α : Type} (answer : Store → Instant → Write → Option α) (s : Store) :
    List (Instant × Write) → List α
  | [] => []
  | (now, w) :: ws => (answer s now w).toList ++ (s.apply now w).answered answer ws

theorem created?_of_attempt_none {w : Write} (h : s.attempt now w = none) : s.created? now w = none := by
  cases w with
  | createStrategy name description => cases h
  | saveVersion strategy content => rfl
  | updateVersion id content => rfl
  | setMaster strategy version => rfl

theorem saved?_of_attempt_none {w : Write} (h : s.attempt now w = none) : s.saved? now w = none := by
  cases w with
  | saveVersion strategy content =>
    simp only [attempt] at h
    simp only [saved?]
    cases hs : s.saveVersion now strategy content with
    | error e => rfl
    | ok p =>
      rw [hs] at h
      cases h
  | createStrategy name description => rfl
  | updateVersion id content => rfl
  | setMaster strategy version => rfl

theorem saved?_of_free (h : WellFormed s) {t : Strategy} (ht : t ∈ s.strategies) {content : Content}
    (hfree : ∀ v ∈ s.versions, v.strategy = t.id → v.content.code ≠ content.code) :
    s.saved? now (.saveVersion t.id content) = some (s.newVersion now t.id content) := by
  have hs : s.saveVersion now t.id content =
      .ok (s.newVersion now t.id content, s.withVersion (s.newVersion now t.id content)) :=
    (saveVersion_eq_ok_iff h).mpr ⟨⟨t, ht, rfl⟩, hfree, rfl, rfl⟩
  rw [saved?, hs]
  rfl

/-! ## Rows and answers -/

/-- One write puts the strategy that it answers behind those there were. -/
theorem Effect.strategyOrigins {w : Write} (he : Effect s now w s') (h : WellFormed s) :
    s'.strategies.map Strategy.origin =
      s.strategies.map Strategy.origin ++ (s.created? now w).toList.map Strategy.origin := by
  cases he with
  | createStrategy name description =>
    rw [strategies_withStrategy h]
    exact List.map_append
  | saveVersion t content ht hfree => exact (List.append_nil _).symm
  | updateVersion v content hv hfree => exact (List.append_nil _).symm
  | setMaster t v ht hv hown =>
    have hsame : (s.flag t.id v.id now).strategies.map Strategy.origin = s.strategies.map Strategy.origin := by
      simp
    rw [hsame]
    exact (List.append_nil _).symm

/-- One write puts the version that it answers behind those there were. -/
theorem Effect.versionOrigins {w : Write} (he : Effect s now w s') (h : WellFormed s) :
    s'.versions.map Version.origin =
      s.versions.map Version.origin ++ (s.saved? now w).toList.map Version.origin := by
  cases he with
  | createStrategy name description => exact (List.append_nil _).symm
  | saveVersion t content ht hfree =>
    rw [saved?_of_free h ht hfree, versions_withVersion h]
    exact List.map_append
  | updateVersion v content hv hfree =>
    have hsame : (s.revise v.id content now).versions.map Version.origin = s.versions.map Version.origin := by
      simp
    rw [hsame]
    exact (List.append_nil _).symm
  | setMaster t v ht hv hown =>
    have hsame : (s.flag t.id v.id now).versions.map Version.origin = s.versions.map Version.origin := by
      simp
    rw [hsame]
    exact (List.append_nil _).symm

/-- Where a write that succeeds puts what it answers behind what there was, and one that fails
    answers nothing, every run leaves its answers behind what there was. -/
theorem run_rows {α β : Type} (rows : Store → List β) {answer : Store → Instant → Write → Option α}
    {g : α → β} (hnone : ∀ {s : Store} {now w}, s.attempt now w = none → answer s now w = none)
    (heffect : ∀ {s s' : Store} {now w}, Effect s now w s' → WellFormed s →
      rows s' = rows s ++ (answer s now w).toList.map g)
    (h : WellFormed s) (writes : List (Instant × Write)) :
    rows (s.run writes) = rows s ++ (s.answered answer writes).map g := by
  induction writes generalizing s with
  | nil => exact (List.append_nil _).symm
  | cons w ws ih =>
    obtain ⟨now, w⟩ := w
    have hstep : rows (s.apply now w) = rows s ++ (answer s now w).toList.map g := by
      rcases apply_cases h now w with ⟨hfail, heq⟩ | he
      · rw [heq, hnone hfail]
        exact (List.append_nil _).symm
      · exact heffect he h
    rw [run_cons, ih (wellFormed_apply h now w), hstep, answered, List.map_append, List.append_assoc]

theorem run_strategyOrigins (h : WellFormed s) (writes : List (Instant × Write)) :
    (s.run writes).strategies.map Strategy.origin =
      s.strategies.map Strategy.origin ++ (s.answered created? writes).map Strategy.origin :=
  run_rows (fun s => s.strategies.map Strategy.origin) created?_of_attempt_none Effect.strategyOrigins h writes

theorem run_versionOrigins (h : WellFormed s) (writes : List (Instant × Write)) :
    (s.run writes).versions.map Version.origin =
      s.versions.map Version.origin ++ (s.answered saved? writes).map Version.origin :=
  run_rows (fun s => s.versions.map Version.origin) saved?_of_attempt_none Effect.versionOrigins h writes

/-! ## Keys, ids and later stores -/

/-- Each row is under its own id: what is found under a key is a stored row with that id, and every stored row is
found under its id. -/
structure Keyed (s : Store) : Prop where
  strategy : ∀ id t, s.strategy? id = some t ↔ t ∈ s.strategies ∧ t.id = id
  version : ∀ id v, s.version? id = some v ↔ v ∈ s.versions ∧ v.id = id

theorem WellFormed.keyed (h : WellFormed s) : Keyed s where
  strategy _ _ := strategy?_eq_some_iff h
  version _ _ := version?_eq_some_iff h

/-- The store has the rows that were handed out, and no two of them have one id. -/
structure Records (s : Store) (strategies : List Strategy) (versions : List Version) : Prop where
  strategyRows : s.strategies.map Strategy.origin = strategies.map Strategy.origin
  versionRows : s.versions.map Version.origin = versions.map Version.origin
  strategyIds : (strategies.map Strategy.id).Nodup
  versionIds : (versions.map Version.id).Nodup

/-- Rows of equal origins have equal ids. -/
theorem map_fst_of_map_eq {α β γ : Type} {origin : α → β × γ} {l l' : List α}
    (h : l.map origin = l'.map origin) : (l.map fun a => (origin a).1) = l'.map fun a => (origin a).1 := by
  have := congrArg (List.map Prod.fst) h
  rwa [List.map_map, List.map_map] at this

theorem run_records (writes : List (Instant × Write)) :
    Records (run {} writes) (answered created? {} writes) (answered saved? {} writes) := by
  have h := wellFormed_run writes
  have hstrategies : (run {} writes).strategies.map Strategy.origin =
      (answered created? {} writes).map Strategy.origin := run_strategyOrigins wellFormed_empty writes
  have hversions : (run {} writes).versions.map Version.origin =
      (answered saved? {} writes).map Version.origin := run_versionOrigins wellFormed_empty writes
  have hstrategyIds : (run {} writes).strategies.map Strategy.id =
      (answered created? {} writes).map Strategy.id := map_fst_of_map_eq hstrategies
  have hversionIds : (run {} writes).versions.map Version.id =
      (answered saved? {} writes).map Version.id := map_fst_of_map_eq hversions
  refine ⟨hstrategies, hversions, ?_, ?_⟩
  · rw [← hstrategyIds]
    exact h.strategyIds.imp Int.ne_of_lt
  · rw [← hversionIds]
    exact h.versionIds.imp Int.ne_of_lt

/-- Every row of the earlier store is in the later one, in its place, with its id and its origin. -/
structure Extends (s s' : Store) : Prop where
  strategies : s.strategies.map Strategy.origin <+: s'.strategies.map Strategy.origin
  versions : s.versions.map Version.origin <+: s'.versions.map Version.origin

theorem extends_run (h : WellFormed s) (writes : List (Instant × Write)) : Extends s (s.run writes) where
  strategies := by
    rw [run_strategyOrigins h]
    exact List.prefix_append _ _
  versions := by
    rw [run_versionOrigins h]
    exact List.prefix_append _ _

/-- After every sequence of writes the store is well formed and each row is under its own id; its
    rows are those that the writes answered, no two of which have one id; and no write that comes
    later loses a row or changes its id or its strategy. -/
theorem run_keeps_rows (writes later : List (Instant × Write)) :
    (run {} writes).WellFormed ∧ (run {} writes).Keyed ∧
      (run {} writes).Records (answered created? {} writes) (answered saved? {} writes) ∧
      (run {} writes).Extends (run {} (writes ++ later)) := by
  have h := wellFormed_run writes
  have hlater : run {} (writes ++ later) = (run {} writes).run later := List.foldl_append
  refine ⟨h, h.keyed, run_records writes, ?_⟩
  rw [hlater]
  exact extends_run h later

end Store
end StrategyBench
