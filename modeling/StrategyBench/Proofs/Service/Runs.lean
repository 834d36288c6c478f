/-
StrategyBench.Proofs.Service.Runs — what a service leaves in the store, one call after the other.

On a well-formed store a call does to the store what its writes do (`after_eq_run`), so a service
that starts with an empty store only ever has stores that runs of writes lead to
(`wellFormed_serve`), and whatever runs of writes keep it keeps as well.

A call that fails leaves the store as it was (`failed_call_keeps_store`). The one call that writes
twice is a submission that asks for its version to be the master: once it is saved, nothing that is
left to do can fail.
-/

import StrategyBench.Proofs.Service.Requests

namespace StrategyBench.Service

/-! ## Calls -/

/-- A request that may write. -/
inductive Call
  | createStrategy (name : String) (description : Option String)
  | submit (r : Submission)
  | update (r : Revision)
  | setMaster (strategy version : Int)

inductive Answer
  | strategy (row : Strategy)
  | version (row : Version)
  | done

def Call.request (env : Surroundings) : Call → Request Answer
  | .createStrategy name description => .strategy <$> Service.createStrategy env name description
  | .submit r => .version <$> Service.submit env r
  | .update r => .version <$> Service.update env r
  | .setMaster strategy version => (fun _ => .done) <$> Service.setMaster env strategy version

/-- The store after a call. -/
def Call.after (env : Surroundings) (c : Call) (s : Store) : Store := (exec (c.request env) s).2

/-- A call, with the moment and the date at which it comes. -/
structure Arrival where
  now : Instant
  today : Date
  call : Call

/-- The store after calls to a service with a sandbox. -/
def serve (execute : String → Except Rejection Schema) (s : Store) (calls : List Arrival) : Store :=
  calls.foldl (fun s a => a.call.after ⟨execute, a.now, a.today⟩ s) s

/-! ## A call as writes -/

/-- The writes that a call makes on a store. -/
def Call.writes (env : Surroundings) (s : Store) : Call → List Store.Write
  | .createStrategy name description =>
    if (Text.trim name).isEmpty then [] else [.createStrategy (Text.trim name) description]
  | .submit r =>
    match r.content env s with
    | .error _ => []
    | .ok content =>
      .saveVersion r.strategy content ::
        if r.isMaster then [.setMaster r.strategy (s.lastVersion + 1)] else []
  | .update r =>
    match r.content env s with
    | .error _ => []
    | .ok content => [.updateVersion r.version content]
  | .setMaster strategy version => [.setMaster strategy version]

/-- A write that answers a row leaves the store that `apply` tells. -/
theorem committed_snd {α : Type} (r : Except StoreError (α × Store)) (s : Store) :
    (committed r s).2 = ((r.map Prod.snd).toOption).getD s := by
  cases r <;> rfl

/-- The id that would be handed out next is not there to be made the master. -/
theorem apply_setMaster_next {s : Store} (h : s.WellFormed) (now : Instant) (strategy : Int) :
    s.apply now (.setMaster strategy (s.lastVersion + 1)) = s := by
  rcases Store.apply_cases h now (.setMaster strategy (s.lastVersion + 1)) with ⟨-, heq⟩ | he
  · exact heq
  · exfalso
    generalize s.apply now (.setMaster strategy (s.lastVersion + 1)) = s' at he
    generalize hid : s.lastVersion + 1 = id at he
    cases he with
    | setMaster t v ht hv hown =>
      have hle := h.versionBound v hv
      omega

theorem after_submit_eq_run {s : Store} (h : s.WellFormed) (env : Surroundings) (r : Submission) :
    (Call.submit r).after env s = s.run (((Call.submit r).writes env s).map (env.now, ·)) := by
  simp only [Call.after, Call.request, Call.writes]
  rw [exec_map, exec_submit h]
  cases r.content env s with
  | error e => rfl
  | ok content =>
    simp only [List.map_cons, Store.run_cons]
    cases hs : s.saveVersion env.now r.strategy content with
    | error e =>
      -- nothing was saved, so that the write that follows finds no version to flag
      have hsame : s.apply env.now (.saveVersion r.strategy content) = s := by
        rw [Store.apply, hs]
        rfl
      rw [hsame]
      simp only
      split
      · exact (apply_setMaster_next h env.now r.strategy).symm
      · rfl
    | ok p =>
      obtain ⟨v, s'⟩ := p
      obtain ⟨hflag, -⟩ := Store.setMaster_of_saveVersion h hs
      have hsaved : s.apply env.now (.saveVersion r.strategy content) = s' := by
        rw [Store.apply, hs]
        rfl
      have hid : v.id = s.lastVersion + 1 := by
        obtain ⟨-, -, rfl, -⟩ := (Store.saveVersion_eq_ok_iff h).mp hs
        rfl
      have hflagged : s'.apply env.now (.setMaster r.strategy v.id) = s'.flag r.strategy v.id env.now := by
        rw [Store.apply, hflag]
        rfl
      rw [hsaved, ← hid]
      simp only
      split
      · exact hflagged.symm
      · rfl

/-- What a call does to the store is what its writes do. -/
theorem after_eq_run {s : Store} (h : s.WellFormed) (env : Surroundings) (c : Call) :
    c.after env s = s.run ((c.writes env s).map (env.now, ·)) := by
  cases c with
  | createStrategy name description =>
    simp only [Call.after, Call.request, Call.writes]
    rw [exec_map, exec_createStrategy]
    split <;> rfl
  | submit r => exact after_submit_eq_run h env r
  | update r =>
    simp only [Call.after, Call.request, Call.writes]
    rw [exec_map, exec_update]
    cases r.content env s with
    | error e => rfl
    | ok content => exact committed_snd _ s
  | setMaster strategy version =>
    simp only [Call.after, Call.request, Call.writes]
    rw [exec_map, exec_setMaster]
    simp only [committed_snd]
    cases hs : s.setMaster env.now strategy version <;>
      simp [Store.apply, hs, Except.map, Except.toOption]

theorem wellFormed_after {s : Store} (h : s.WellFormed) (env : Surroundings) (c : Call) :
    (c.after env s).WellFormed := by
  rw [after_eq_run h]
  exact Store.wellFormed_run_of h _

/-- What every call keeps on well-formed stores, a service keeps. -/
theorem serve_keeps (execute : String → Except Rejection Schema) {P : Store → Prop}
    (hcall : ∀ s (a : Arrival), s.WellFormed → P s → P (a.call.after ⟨execute, a.now, a.today⟩ s))
    {s : Store} (h : s.WellFormed) (hs : P s) (calls : List Arrival) :
    (serve execute s calls).WellFormed ∧ P (serve execute s calls) := by
  induction calls generalizing s with
  | nil => exact ⟨h, hs⟩
  | cons a calls ih => exact ih (wellFormed_after h _ _) (hcall s a h hs)

theorem wellFormed_serve (execute : String → Except Rejection Schema) (calls : List Arrival) :
    (serve execute {} calls).WellFormed :=
  (serve_keeps execute (P := fun _ => True) (fun _ _ _ _ => trivial) Store.wellFormed_empty trivial calls).1

/-- A service only ever has stores that writes lead to. -/
theorem reachable_serve (execute : String → Except Rejection Schema) (calls : List Arrival) :
    (serve execute {} calls).Reachable := by
  refine (serve_keeps execute (P := Store.Reachable) (fun s a h hs => ?_) Store.wellFormed_empty ⟨[], rfl⟩ calls).2
  obtain ⟨writes, rfl⟩ := hs
  rw [after_eq_run h]
  exact ⟨_, List.foldl_append.symm⟩

/-! ## Calls that fail -/

theorem committed_error {α : Type} {r : Except StoreError (α × Store)} {s s' : Store} {e : ServiceError}
    (h : committed r s = (.error e, s')) : s' = s := by
  cases r with
  | error e' => exact (congrArg Prod.snd h).symm
  | ok p => cases h

theorem createStrategy_error {env : Surroundings} {name : String} {description : Option String}
    {s s' : Store} {e : ServiceError}
    (h : exec (createStrategy env name description) s = (.error e, s')) : s' = s := by
  rw [exec_createStrategy] at h
  split at h
  · exact (congrArg Prod.snd h).symm
  · cases h

theorem submit_error {env : Surroundings} {r : Submission} {s s' : Store} {e : ServiceError}
    (hw : s.WellFormed) (h : exec (submit env r) s = (.error e, s')) : s' = s := by
  rw [exec_submit hw] at h
  split at h
  · exact (congrArg Prod.snd h).symm
  · split at h
    · exact (congrArg Prod.snd h).symm
    · split at h <;> cases h

theorem update_error {env : Surroundings} {r : Revision} {s s' : Store} {e : ServiceError}
    (h : exec (update env r) s = (.error e, s')) : s' = s := by
  rw [exec_update] at h
  split at h
  · exact (congrArg Prod.snd h).symm
  · exact committed_error h

theorem setMaster_error {env : Surroundings} {strategy version : Int} {s s' : Store} {e : ServiceError}
    (h : exec (setMaster env strategy version) s = (.error e, s')) : s' = s := by
  rw [exec_setMaster] at h
  exact committed_error h

theorem exec_map_error {α β : Type} {f : α → β} {x : Request α} {s s' : Store} {e : ServiceError}
    (h : exec (f <$> x) s = (.error e, s')) : exec x s = (.error e, s') := by
  rw [exec_map] at h
  generalize exec x s = p at h
  obtain ⟨r, s₁⟩ := p
  cases r with
  | error e' =>
    cases h
    rfl
  | ok a => cases h

theorem call_error {env : Surroundings} {c : Call} {s s' : Store} {e : ServiceError} (hw : s.WellFormed)
    (h : exec (c.request env) s = (.error e, s')) : s' = s := by
  cases c with
  | createStrategy name description => exact createStrategy_error (exec_map_error h)
  | submit r => exact submit_error hw (exec_map_error h)
  | update r => exact update_error (exec_map_error h)
  | setMaster strategy version => exact setMaster_error (exec_map_error h)

/-- A submission that succeeds has saved what it decided on, and flagged it if that was asked for. -/
theorem submit_ok {env : Surroundings} {r : Submission} {s s' : Store} {v : Version} (hw : s.WellFormed)
    (h : exec (submit env r) s = (.ok v, s')) :
    ∃ content saved s₁, r.content env s = .ok content ∧
      s.saveVersion env.now r.strategy content = .ok (saved, s₁) ∧
      (v, s') = if r.isMaster then (saved.flagged r.strategy saved.id env.now, s₁.flag r.strategy saved.id env.now)
        else (saved, s₁) := by
  rw [exec_submit hw] at h
  split at h
  · cases h
  · rename_i content hc
    split at h
    · cases h
    · rename_i saved s₁ hs
      refine ⟨content, saved, s₁, hc, hs, ?_⟩
      by_cases hm : r.isMaster = true
      · rw [if_pos hm] at h ⊢
        cases h
        rfl
      · rw [if_neg hm] at h ⊢
        cases h
        rfl

/-- Where a submission is saved, the same submission as master is saved and flagged. -/
theorem submit_master_of_submit {env : Surroundings} {r : Submission} {s s' : Store} {v : Version}
    (hw : s.WellFormed) (h : exec (submit env { r with isMaster := false }) s = (.ok v, s')) :
    v.strategy = r.strategy ∧ exec (submit env { r with isMaster := true }) s =
      (.ok (v.flagged r.strategy v.id env.now), s'.flag r.strategy v.id env.now) := by
  obtain ⟨content, saved, s₁, hc, hs, heq⟩ := submit_ok hw h
  cases heq
  have howner : v.strategy = r.strategy := by
    obtain ⟨-, -, rfl, -⟩ := (Store.saveVersion_eq_ok_iff hw).mp hs
    rfl
  have hc' : Submission.content env { r with isMaster := true } s = .ok content := hc
  refine ⟨howner, ?_⟩
  rw [exec_submit hw, hc']
  simp only
  rw [hs]
  rfl

/-- In every store that a service comes to, a call that fails leaves the store as it was; and a
    submission that asks for its version to be the master succeeds whenever the version is saved. -/
theorem failed_call_keeps_store (execute : String → Except Rejection Schema) (calls : List Arrival)
    (env : Surroundings) :
    (∀ (c : Call) (e : ServiceError) (s' : Store),
      exec (c.request env) (serve execute {} calls) = (.error e, s') → s' = serve execute {} calls) ∧
    ∀ (r : Submission) (v : Version) (s' : Store),
      exec (submit env { r with isMaster := false }) (serve execute {} calls) = (.ok v, s') →
      ∃ v' s'', exec (submit env { r with isMaster := true }) (serve execute {} calls) = (.ok v', s'') ∧
        v'.id = v.id ∧ v'.isMaster = true := by
  have hw := wellFormed_serve execute calls
  refine ⟨fun c e s' h => call_error hw h, fun r v s' h => ?_⟩
  obtain ⟨howner, hm⟩ := submit_master_of_submit hw h
  refine ⟨_, _, hm, Version.flagged_id .., ?_⟩
  rw [Version.flagged_isMaster, if_pos howner, decide_eq_true rfl]

/-- What the sandbox makes of two scripts and of the empty one. -/
def twoScripts : String → Except Rejection Schema
  | "return { run = print }" => .ok {}
  | "factor.boolean([[up]]) return { run = print }" =>
    .ok ⟨[], [{ key := "up", label := "up", kind := "boolean", component := "switch", required := false }]⟩
  | _ => .error (.contractViolation "腳本沒有匯出值，請回傳或以 define_strategy 註冊策略")

def plain (code : String) (isMaster : Bool) : Submission :=
  ⟨1, "return { run = print }", some code, none, isMaster⟩

/-- A strategy with a master. -/
def trend : List Arrival :=
  [⟨1, ⟨2025, 3, 1⟩, .createStrategy "trend" none⟩, ⟨2, ⟨2025, 3, 1⟩, .submit (plain "a" true)⟩]

def afterTrend : Surroundings := ⟨twoScripts, 3, ⟨2025, 3, 2⟩⟩

/-- A taken code fails and keeps the master; under a free code the next version takes its place. -/
theorem failed_call_keeps_trend :
    exec (Call.request afterTrend (.submit (plain " a " true))) (serve twoScripts {} trend) =
      (.error (.version (.versionConflict "a")), serve twoScripts {} trend) ∧
    ∃ v s', exec (submit afterTrend (plain "b" true)) (serve twoScripts {} trend) = (.ok v, s') ∧
      v.isMaster = true := by
  obtain ⟨hkeep, hflag⟩ := failed_call_keeps_store twoScripts trend afterTrend
  constructor
  · have htaken : failure? (Call.request afterTrend (.submit (plain " a " true))) (serve twoScripts {} trend) =
        some (.version (.versionConflict "a")) := by decide +kernel
    have hfails := exec_of_failure htaken
    rw [hfails, hkeep _ _ _ hfails]
  · have hfree : failure? (submit afterTrend (plain "b" false)) (serve twoScripts {} trend) = none := by
      decide +kernel
    obtain ⟨v, hsaved⟩ := exec_of_no_failure hfree
    obtain ⟨v', s'', hmaster, -, hv'⟩ := hflag (plain "b" true) v _ hsaved
    exact ⟨v', s'', hmaster, hv'⟩

end StrategyBench.Service
