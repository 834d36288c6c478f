/-
StrategyBench.Proofs.Service.Listing — the versions of a strategy, newest first.

A listing is sorted by moments of creation, and by ids where these are equal. Submissions are all that
ever puts versions into the store, each behind those there were and with the moment at which it came
(`serve_origins`), and nothing that comes later rewrites that moment. So while the clock does not go
back, versions stand in the order of their moments (`chronological_submitted`) as well as of their ids,
and a listing is the stored order turned round (`versionsOf_eq_reverse`).
-/

import StrategyBench.Proofs.Service.Runs
import StrategyBench.Proofs.Store.Codes
import StrategyBench.Proofs.Store.Permanence

namespace StrategyBench

/-! ## The order of a listing -/

namespace Store

variable {s : Store}

theorem listedBefore_iff {a b : Version} :
    listedBefore a b = true ↔ b.createdAt < a.createdAt ∨ a.createdAt = b.createdAt ∧ b.id ≤ a.id := by
  simp [listedBefore]

theorem listedBefore_trans (a b c : Version) (hab : listedBefore a b = true) (hbc : listedBefore b c = true) :
    listedBefore a c = true := by
  rw [listedBefore_iff] at *
  grind

theorem listedBefore_total (a b : Version) : (listedBefore a b || listedBefore b a) = true := by
  rw [Bool.or_eq_true, listedBefore_iff, listedBefore_iff]
  grind

/-- Versions stand in the order of the moments at which they were saved. -/
def Chronological (s : Store) : Prop := (s.versions.map Version.createdAt).Pairwise (· ≤ ·)

/-- In a store that has its versions in the order of their moments, a listing is that order turned round. -/
theorem versionsOf_eq_reverse (h : s.WellFormed) (hs : s.Chronological) (strategy : Int) :
    s.versionsOf strategy = (s.versions.filter (·.strategy = strategy)).reverse := by
  have hsorted : (s.versionsOf strategy).Pairwise fun a b => listedBefore a b = true :=
    List.pairwise_mergeSort listedBefore_trans listedBefore_total _
  have hids : s.versions.Pairwise fun v w => v.id < w.id := List.pairwise_map.mp h.versionIds
  have hturned : (s.versions.filter (·.strategy = strategy)).reverse.Pairwise fun a b => listedBefore a b = true := by
    rw [List.pairwise_reverse]
    refine (((List.pairwise_map.mp hs).and hids).imp fun {v w} hvw => listedBefore_iff.mpr ?_).sublist
      List.filter_sublist
    grind
  have hperm : (s.versionsOf strategy).Perm (s.versions.filter (·.strategy = strategy)).reverse :=
    (List.mergeSort_perm _ _).trans (List.reverse_perm _).symm
  refine hperm.eq_of_pairwise (fun a b ha hb hab hba => ?_) hsorted hturned
  -- rows that each come before the other have one id
  rw [listedBefore_iff] at hab hba
  have hid : a.id = b.id := by grind
  exact h.versionKeys.eq_of_key_eq (mem_versionsOf.mp ha).1 (List.mem_filter.mp (List.mem_reverse.mp hb)).1 hid

end Store

namespace Service

variable {env : Surroundings} {s : Store}

/-! ## What submissions add -/

/-- The version that a call answers as a new one. -/
def Call.submitted? (env : Surroundings) (s : Store) : Call → Option Version
  | .submit r => (exec (Service.submit env r) s).1.toOption
  | .createStrategy .. | .update _ | .setMaster .. => none

/-- The versions that the submissions among the calls answer, in the order of the calls. -/
def submitted (execute : String → Except Rejection Schema) (s : Store) : List Arrival → List Version
  | [] => []
  | a :: calls =>
    let env : Surroundings := ⟨execute, a.now, a.today⟩
    (a.call.submitted? env s).toList ++ submitted execute (a.call.after env s) calls

/-- A submission that succeeds puts the version that it answers behind those there were. -/
theorem origins_of_submit (h : s.WellFormed) {r : Submission} {s' : Store} {v : Version}
    (hexec : exec (submit env r) s = (.ok v, s')) :
    v.createdAt = env.now ∧ s'.versions.map Version.origin = s.versions.map Version.origin ++ [v.origin] := by
  obtain ⟨content, saved, s₁, -, hsave, heq⟩ := submit_ok h hexec
  obtain ⟨-, -, rfl, rfl⟩ := (Store.saveVersion_eq_ok_iff h).mp hsave
  by_cases hmaster : r.isMaster = true
  · rw [if_pos hmaster] at heq
    cases heq
    refine ⟨congrArg (·.2.2) (Version.flagged_origin ..), ?_⟩
    simp [Store.versions_withVersion h]
  · rw [if_neg hmaster] at heq
    cases heq
    refine ⟨rfl, ?_⟩
    simp [Store.versions_withVersion h]

theorem createdAt_of_submitted? (h : s.WellFormed) {c : Call} {v : Version} (hv : c.submitted? env s = some v) :
    v.createdAt = env.now := by
  cases c with
  | submit r =>
    have hok : (exec (submit env r) s).1 = .ok v := toOption_eq_some_iff.mp hv
    have hexec : exec (submit env r) s = (.ok v, (exec (submit env r) s).2) := by rw [← hok]
    exact (origins_of_submit h hexec).1
  | createStrategy name description => cases hv
  | update r => cases hv
  | setMaster strategy version => cases hv

/-- A call puts the version that it answers as a new one behind those there were, and keeps what those were
    saved with. -/
theorem after_origins (h : s.WellFormed) (c : Call) :
    (c.after env s).versions.map Version.origin =
      s.versions.map Version.origin ++ (c.submitted? env s).toList.map Version.origin := by
  cases c with
  | submit r =>
    simp only [Call.after, Call.request, Call.submitted?, exec_map]
    cases hexec : exec (submit env r) s with
    | mk result s' =>
      cases result with
      | error e =>
        rw [submit_error h hexec]
        exact (List.append_nil _).symm
      | ok v => exact (origins_of_submit h hexec).2
  -- the writes of every other call answer no new version
  | createStrategy name description =>
    rw [after_eq_run h, Store.run_versionOrigins h]
    simp only [Call.writes]
    split <;> rfl
  | update r =>
    rw [after_eq_run h, Store.run_versionOrigins h]
    simp only [Call.writes]
    split <;> rfl
  | setMaster strategy version =>
    rw [after_eq_run h, Store.run_versionOrigins h]
    rfl

/-! ## Runs -/

variable {execute : String → Except Rejection Schema} {calls : List Arrival}

theorem serve_origins (h : s.WellFormed) (execute : String → Except Rejection Schema) (calls : List Arrival) :
    (serve execute s calls).versions.map Version.origin =
      s.versions.map Version.origin ++ (submitted execute s calls).map Version.origin := by
  induction calls generalizing s with
  | nil => exact (List.append_nil _).symm
  | cons a calls ih =>
    have hrest := ih (wellFormed_after h ⟨execute, a.now, a.today⟩ a.call)
    rw [submitted, List.map_append, ← List.append_assoc, ← after_origins h]
    exact hrest

/-- What is submitted has the moment of a call. -/
theorem exists_arrival_of_submitted (h : s.WellFormed) {v : Version} (hv : v ∈ submitted execute s calls) :
    ∃ a ∈ calls, v.createdAt = a.now := by
  induction calls generalizing s with
  | nil => cases hv
  | cons a calls ih =>
    rcases List.mem_append.mp hv with hfirst | hrest
    · exact ⟨a, List.mem_cons_self, createdAt_of_submitted? h (Option.mem_toList.mp hfirst)⟩
    · obtain ⟨b, hb, hnow⟩ := ih (wellFormed_after h _ _) hrest
      exact ⟨b, List.mem_cons_of_mem _ hb, hnow⟩

theorem chronological_submitted (h : s.WellFormed) (hclock : calls.Pairwise fun a b => a.now ≤ b.now) :
    ((submitted execute s calls).map Version.createdAt).Pairwise (· ≤ ·) := by
  rw [List.pairwise_map]
  induction calls generalizing s with
  | nil => exact .nil
  | cons a calls ih =>
    obtain ⟨hlater, hclock⟩ := List.pairwise_cons.mp hclock
    refine List.pairwise_append.mpr ⟨?_, ih (wellFormed_after h _ _) hclock, fun v hv w hw => ?_⟩
    · cases a.call.submitted? ⟨execute, a.now, a.today⟩ s with
      | none => exact .nil
      | some v => exact List.pairwise_singleton _ v
    · obtain ⟨b, hb, hnow⟩ := exists_arrival_of_submitted (wellFormed_after h _ _) hw
      rw [createdAt_of_submitted? h (Option.mem_toList.mp hv), hnow]
      exact hlater b hb

/-- While the clock does not go back, versions stand in the order of their moments. -/
theorem chronological_serve (execute : String → Except Rejection Schema)
    (hclock : calls.Pairwise fun a b => a.now ≤ b.now) : (serve execute {} calls).Chronological := by
  have hrows : (serve execute {} calls).versions.map Version.origin =
      (submitted execute {} calls).map Version.origin := serve_origins Store.wellFormed_empty execute calls
  have hmoments := congrArg (List.map (·.2.2)) hrows
  rw [List.map_map, List.map_map] at hmoments
  have hsame : (serve execute {} calls).versions.map Version.createdAt =
      (submitted execute {} calls).map Version.createdAt := hmoments
  rw [Store.Chronological, hsame]
  exact chronological_submitted Store.wellFormed_empty hclock

/-! ## Listings -/

theorem exec_listVersions_of_mem (h : s.WellFormed) {strategy : Int} (hrow : ∃ t ∈ s.strategies, t.id = strategy) :
    exec (listVersions strategy) s = (.ok (s.versionsOf strategy), s) := by
  obtain ⟨t, ht⟩ := Store.exists_strategy? h hrow
  rw [exec_listVersions, ht]
  rfl

/-- While the clock does not go back, a listing of a strategy that there is has the stored versions of that
    strategy and no other, the greater id always first. They are what the submissions to the strategy that
    succeeded have answered, each once and the last one first, whatever calls came between: each has the id
    and the moment that it was answered with. -/
theorem listed_newest_first (execute : String → Except Rejection Schema) (calls : List Arrival)
    (hclock : calls.Pairwise fun a b => a.now ≤ b.now) (strategy : Int)
    (hrow : ∃ t ∈ (serve execute {} calls).strategies, t.id = strategy) :
    let s := serve execute {} calls
    ∃ vs, exec (listVersions strategy) s = (.ok vs, s) ∧
      (∀ v, v ∈ vs ↔ v ∈ s.versions ∧ v.strategy = strategy) ∧
      vs.Pairwise (fun v w => w.id < v.id) ∧
      vs.map Version.origin =
        (((submitted execute {} calls).filter (·.strategy = strategy)).map Version.origin).reverse := by
  intro s
  have h : s.WellFormed := wellFormed_serve execute calls
  have hlisted : s.versionsOf strategy = (s.versions.filter (·.strategy = strategy)).reverse :=
    Store.versionsOf_eq_reverse h (chronological_serve execute hclock) strategy
  refine ⟨_, exec_listVersions_of_mem h hrow, fun v => Store.mem_versionsOf, ?_, ?_⟩
  · have hids : s.versions.Pairwise fun v w => v.id < w.id := List.pairwise_map.mp h.versionIds
    rw [hlisted, List.pairwise_reverse]
    exact hids.sublist List.filter_sublist
  · have hrows : s.versions.map Version.origin = (submitted execute {} calls).map Version.origin :=
      serve_origins Store.wellFormed_empty execute calls
    have hown : ∀ vs : List Version, (vs.filter (·.strategy = strategy)).map Version.origin =
        (vs.map Version.origin).filter (·.2.1 = strategy) := fun vs => by
      rw [List.filter_map]
      rfl
    rw [hlisted, List.map_reverse, hown, hown, hrows]

/-- Two strategies whose versions come in turn at one moment. The first version is renamed before the others come,
    and gets a remark and loses its place as the master after; two calls fail. -/
def trendAndCarry : List Arrival :=
  [⟨1, ⟨2025, 3, 1⟩, .createStrategy "trend" none⟩, ⟨1, ⟨2025, 3, 1⟩, .createStrategy "carry" none⟩,
    ⟨2, ⟨2025, 3, 1⟩, .submit (plain "a" true)⟩, ⟨2, ⟨2025, 3, 1⟩, .update ⟨1, none, some "z", none⟩⟩,
    ⟨2, ⟨2025, 3, 1⟩, .submit { plain "a" false with strategy := 2 }⟩, ⟨2, ⟨2025, 3, 1⟩, .submit (plain "a" false)⟩,
    ⟨3, ⟨2025, 3, 2⟩, .submit (plain " " true)⟩, ⟨3, ⟨2025, 3, 2⟩, .setMaster 1 2⟩, ⟨4, ⟨2025, 3, 2⟩, .setMaster 1 3⟩,
    ⟨5, ⟨2025, 3, 2⟩, .update ⟨1, none, none, some "kept"⟩⟩]

/-- The version that was changed last is listed last. -/
theorem trend_listed_newest_first :
    ∃ vs, exec (listVersions 1) (serve twoScripts {} trendAndCarry) = (.ok vs, serve twoScripts {} trendAndCarry) ∧
      vs.map Version.origin = [(3, 1, 2), (1, 1, 2)] := by
  have hclock : trendAndCarry.Pairwise fun a b => a.now ≤ b.now := by decide
  have hrow : ∃ t ∈ (serve twoScripts {} trendAndCarry).strategies, t.id = 1 := by decide +kernel
  obtain ⟨vs, hexec, -, -, horigins⟩ := listed_newest_first twoScripts trendAndCarry hclock 1 hrow
  refine ⟨vs, hexec, ?_⟩
  rw [horigins]
  decide +kernel

end Service
end StrategyBench
