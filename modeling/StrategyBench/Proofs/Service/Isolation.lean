/-
StrategyBench.Proofs.Service.Isolation — what a strategy's requests see and change is the strategy's own.

All strategies share the list of versions and the counters. Still a request that is addressed to a
strategy does the same on the strategy's part of the store (`Store.only`) as on the whole store, and
leaves the rows of the others alone (`Confined`, one lemma for each request). So it cannot tell two
stores apart that agree on the strategy, whatever else they hold (`strategies_are_isolated`).

The moment at which a request comes decides nothing but times in rows (`exec_moment`).
-/

import StrategyBench.Proofs.Service.Requests
import StrategyBench.Proofs.Store.Moments
import StrategyBench.Proofs.Store.Restriction

namespace StrategyBench

namespace Store

variable {s s' : Store} {strategy : Int}

theorem AgreeOn.undated (h : AgreeOn strategy s s') : AgreeOn strategy s.undated s'.undated where
  row := by
    rw [strategies_undated, strategies_undated]
    exact mem_map_key_congr (fun _ => rfl) h.row
  versions := by
    rw [versions_undated, versions_undated]
    exact mem_map_key_congr (fun _ => rfl) h.versions
  lastStrategy := h.lastStrategy
  lastVersion := h.lastVersion

end Store

namespace Service

variable {α β : Type} {env : Surroundings} {s : Store} {strategy : Int}

/-! ## Requests of a strategy -/

/-- A request that is addressed to a strategy. -/
inductive Addressed
  | submit (source : String) (code remark : Option String) (isMaster : Bool)
  | update (r : Revision)
  | setMaster (version : Int)
  | listVersions
  | getSchema (version : Int)
  | diff (base compare : Int)
  | nextCode (date : Date)

inductive Reply
  | version (row : Version)
  | versions (rows : List Version)
  | schema (schema : Schema)
  | diff (d : VersionDiff)
  | code (text : String)
  | done

def Addressed.request (env : Surroundings) (strategy : Int) : Addressed → Request Reply
  | .submit source code remark isMaster =>
    .version <$> Service.submit env ⟨strategy, source, code, remark, isMaster⟩
  | .update r => .version <$> Service.update env r
  | .setMaster version => (fun _ => .done) <$> Service.setMaster env strategy version
  | .listVersions => .versions <$> Service.listVersions strategy
  | .getSchema version => .schema <$> Service.getSchema version
  | .diff base compare => .diff <$> Service.diff strategy base compare
  | .nextCode date => .code <$> Service.nextCode strategy date

/-- Revisions and schemas are asked for by the version's id alone: they are addressed to the strategy
    that the version belongs to. The other requests name the strategy. -/
def Addressed.Concerns (strategy : Int) (s : Store) : Addressed → Prop
  | .update r => ∃ v ∈ s.versions, v.id = r.version ∧ v.strategy = strategy
  | .getSchema version => ∃ v ∈ s.versions, v.id = version ∧ v.strategy = strategy
  | _ => True

/-! ## Confined requests -/

/-- The request does on the strategy's part of the store what it does on the store, and leaves the
    rows of the other strategies alone. -/
structure Confined (strategy : Int) (x : Request α) (s : Store) : Prop where
  part : exec x (s.only strategy) = ((exec x s).1, (exec x s).2.only strategy)
  others : (exec x s).2.others strategy = s.others strategy

theorem Confined.map {x : Request α} (h : Confined strategy x s) (f : α → β) :
    Confined strategy (f <$> x) s where
  part := by rw [exec_map, exec_map, h.part]
  others := by
    rw [exec_map]
    exact h.others

/-- A request that only reads is confined where it reads the same in the part. -/
theorem confined_of_reading {x : Request α} {read : Store → Except ServiceError α}
    (hexec : ∀ s, exec x s = (read s, s)) (hread : read (s.only strategy) = read s) : Confined strategy x s where
  part := by rw [hexec, hexec, hread]
  others := by rw [hexec]

theorem committed_partOf (r : Except StoreError (α × Store)) (s : Store) :
    committed (Store.partOf strategy r) (s.only strategy) =
      ((committed r s).1, (committed r s).2.only strategy) := by
  cases r <;> rfl

theorem submission_content_only (h : s.WellFormed) (r : Submission) :
    r.content env (s.only r.strategy) = r.content env s := by
  have hcode : ∀ requested, chosenCode env (s.only r.strategy) r.strategy requested =
      chosenCode env s r.strategy requested := by
    intro requested
    cases requested with
    | none => exact Store.nextCode_only h env.today
    | some code =>
      simp only [chosenCode]
      rw [Store.ensureCodeAvailable_only]
  unfold Submission.content
  simp only [Store.strategy?_only h, hcode]

theorem confined_submit (h : s.WellFormed) (r : Submission) : Confined r.strategy (submit env r) s where
  part := by
    rw [exec_submit (h.only _), exec_submit h, submission_content_only h]
    cases r.content env s with
    | error e => rfl
    | ok content =>
      simp only [Store.saveVersion_only h]
      cases s.saveVersion env.now r.strategy content with
      | error e => rfl
      | ok p =>
        simp only [Store.partOf, Except.map]
        split
        · rw [Store.only_flag]
        · rfl
  others := by
    rw [exec_submit h]
    cases r.content env s with
    | error e => rfl
    | ok content =>
      simp only
      cases hsave : s.saveVersion env.now r.strategy content with
      | error e => rfl
      | ok p =>
        obtain ⟨v, s'⟩ := p
        obtain ⟨-, -, rfl, rfl⟩ := (Store.saveVersion_eq_ok_iff h).mp hsave
        simp only
        split
        · rw [Store.others_flag, Store.others_withVersion h]
        · rw [Store.others_withVersion h]

theorem revision_content_only (h : s.WellFormed) {r : Revision}
    (hown : ∃ v ∈ s.versions, v.id = r.version ∧ v.strategy = strategy) :
    r.content env (s.only strategy) = r.content env s := by
  obtain ⟨v, hv, hid, hs⟩ := hown
  have hfound : s.version? r.version = some v := (Store.version?_eq_some_iff h).mpr ⟨hv, hid⟩
  have hcheck : ∀ requested, codeCheck (s.only strategy) v requested = codeCheck s v requested := by
    intro requested
    cases requested with
    | none => rfl
    | some code =>
      simp only [codeCheck]
      rw [hs, Store.ensureCodeAvailable_only]
  unfold Revision.content
  rw [Store.version?_only_of_owned h ⟨v, hv, hid, hs⟩, hfound]
  simp only [found, ok_bind, hcheck]

theorem confined_update (h : s.WellFormed) {r : Revision}
    (hown : ∃ v ∈ s.versions, v.id = r.version ∧ v.strategy = strategy) :
    Confined strategy (update env r) s where
  part := by
    rw [exec_update, exec_update, revision_content_only h hown]
    obtain ⟨v, hv, hid, hs⟩ := hown
    cases r.content env s with
    | error e => rfl
    | ok content =>
      simp only [← hid]
      rw [Store.updateVersion_only h hv hs]
      exact committed_partOf _ s
  others := by
    rw [exec_update]
    obtain ⟨v, hv, hid, hs⟩ := hown
    cases r.content env s with
    | error e => rfl
    | ok content =>
      simp only [← hid]
      cases hupdate : s.updateVersion env.now v.id content with
      | error e => rfl
      | ok p =>
        obtain ⟨v', s'⟩ := p
        obtain ⟨-, -, -, -, -, rfl⟩ := (Store.updateVersion_eq_ok_iff h).mp hupdate
        exact Store.others_revise h hv hs content

theorem confined_setMaster (h : s.WellFormed) (version : Int) :
    Confined strategy (setMaster env strategy version) s where
  part := by
    rw [exec_setMaster, exec_setMaster, Store.setMaster_only h]
    cases s.setMaster env.now strategy version <;> rfl
  others := by
    rw [exec_setMaster]
    cases hset : s.setMaster env.now strategy version with
    | error e => rfl
    | ok s' =>
      obtain ⟨-, -, rfl⟩ := (Store.setMaster_eq_ok_iff h).mp hset
      exact Store.others_flag version

theorem confined_listVersions (h : s.WellFormed) : Confined strategy (listVersions strategy) s := by
  refine confined_of_reading (exec_listVersions strategy) ?_
  rw [Store.strategy?_only h, Store.versionsOf_only]

theorem confined_getSchema (h : s.WellFormed) {version : Int}
    (hown : ∃ v ∈ s.versions, v.id = version ∧ v.strategy = strategy) :
    Confined strategy (getSchema version) s := by
  refine confined_of_reading (exec_getSchema version) ?_
  rw [Store.version?_only_of_owned h hown]

theorem confined_diff (h : s.WellFormed) (base compare : Int) : Confined strategy (diff strategy base compare) s := by
  refine confined_of_reading (exec_diff strategy base compare) ?_
  simp only [Store.version?_only h, Option.filter_filter, Bool.and_self]

theorem confined_nextCode (h : s.WellFormed) (date : Date) : Confined strategy (nextCode strategy date) s := by
  refine confined_of_reading (exec_nextCode strategy date) ?_
  rw [Store.nextCode_only h]

theorem confined_addressed (h : s.WellFormed) {r : Addressed} (hr : r.Concerns strategy s) :
    Confined strategy (r.request env strategy) s := by
  cases r with
  | submit source code remark isMaster => exact (confined_submit h ⟨strategy, _, _, _, _⟩).map _
  | update r => exact (confined_update h hr).map _
  | setMaster version => exact (confined_setMaster h version).map _
  | listVersions => exact (confined_listVersions h).map _
  | getSchema version => exact (confined_getSchema h hr).map _
  | diff base compare => exact (confined_diff h base compare).map _
  | nextCode date => exact (confined_nextCode h date).map _

/-! ## Moments -/

def Reply.undated : Reply → Reply
  | .version row => .version row.undated
  | .versions rows => .versions (rows.map Version.undated)
  | .diff d => .diff { d with base := d.base.undated, compare := d.compare.undated }
  | r => r

/-- What a request answers and leaves, without the times in rows. -/
def outcomeUndated (f : α → β) (p : Except ServiceError α × Store) : Except ServiceError β × Store :=
  (p.1.map f, p.2.undated)

theorem outcomeUndated_map {γ δ : Type} {x x' : Request α} {f : α → β} {g : α → γ} {g' : β → δ} (f' : γ → δ)
    (hcomm : ∀ a, g' (f a) = f' (g a))
    (h : outcomeUndated g (exec x s) = outcomeUndated g (exec x' s)) :
    outcomeUndated g' (exec (f <$> x) s) = outcomeUndated g' (exec (f <$> x') s) := by
  have hfactor : ∀ y : Request α, outcomeUndated g' (exec (f <$> y) s) =
      ((outcomeUndated g (exec y s)).1.map f', (outcomeUndated g (exec y s)).2) := by
    intro y
    rw [exec_map]
    cases hy : exec y s with
    | mk r s' => cases r <;> simp [outcomeUndated, Except.map, hcomm]
  rw [hfactor, hfactor, h]

section Moments

variable (execute : String → Except Rejection Schema) (today : Date) (now now' : Instant)

theorem moment_submit (h : s.WellFormed) (r : Submission) :
    outcomeUndated Version.undated (exec (submit ⟨execute, now, today⟩ r) s) =
      outcomeUndated Version.undated (exec (submit ⟨execute, now', today⟩ r) s) := by
  have hcontent : r.content ⟨execute, now, today⟩ s = r.content ⟨execute, now', today⟩ s := rfl
  rw [exec_submit h, exec_submit h, hcontent]
  cases r.content ⟨execute, now', today⟩ s with
  | error e => rfl
  | ok content =>
    rcases s.saveVersion_cases r.strategy content with ⟨e, he⟩ | hok
    · simp only [he, outcomeUndated]
    · have hrow : (s.newVersion now r.strategy content).undated = (s.newVersion now' r.strategy content).undated := rfl
      have hid : (s.newVersion now r.strategy content).id = (s.newVersion now' r.strategy content).id := rfl
      simp only [hok]
      split
      · simp only [outcomeUndated, Except.map, Version.undated_flagged, Store.undated_flag,
          Store.undated_withVersion, hrow, hid]
      · simp only [outcomeUndated, Except.map, Store.undated_withVersion, hrow]

theorem moment_update (h : s.WellFormed) (r : Revision) :
    outcomeUndated Version.undated (exec (update ⟨execute, now, today⟩ r) s) =
      outcomeUndated Version.undated (exec (update ⟨execute, now', today⟩ r) s) := by
  have hcontent : r.content ⟨execute, now, today⟩ s = r.content ⟨execute, now', today⟩ s := rfl
  rw [exec_update, exec_update, hcontent]
  cases r.content ⟨execute, now', today⟩ s with
  | error e => rfl
  | ok content =>
    rcases Store.updateVersion_cases h r.version content with ⟨e, he⟩ | ⟨v, -, -, hok⟩
    · simp only [he, committed, outcomeUndated]
    · simp only [hok, committed, outcomeUndated, Except.map, Version.undated_revised, Store.undated_revise]

theorem moment_setMaster (h : s.WellFormed) (strategy version : Int) :
    outcomeUndated id (exec (setMaster ⟨execute, now, today⟩ strategy version) s) =
      outcomeUndated id (exec (setMaster ⟨execute, now', today⟩ strategy version) s) := by
  rw [exec_setMaster, exec_setMaster]
  rcases Store.setMaster_cases h strategy version with ⟨e, he⟩ | hok
  · simp only [he, Except.map, committed, outcomeUndated]
  · simp only [hok, Except.map, committed, outcomeUndated, Store.undated_flag]

/-- At another moment a request of a strategy answers and leaves the same, the times in rows aside. -/
theorem exec_moment (h : s.WellFormed) (r : Addressed) (strategy : Int) :
    outcomeUndated Reply.undated (exec (r.request ⟨execute, now, today⟩ strategy) s) =
      outcomeUndated Reply.undated (exec (r.request ⟨execute, now', today⟩ strategy) s) := by
  cases r with
  | submit source code remark isMaster =>
    exact outcomeUndated_map .version (fun _ => rfl) (moment_submit execute today now now' h ⟨strategy, _, _, _, _⟩)
  | update r => exact outcomeUndated_map .version (fun _ => rfl) (moment_update execute today now now' h r)
  | setMaster version =>
    exact outcomeUndated_map (fun _ => .done) (fun _ => rfl)
      (moment_setMaster execute today now now' h strategy version)
  | listVersions => rfl
  | getSchema version => rfl
  | diff base compare => rfl
  | nextCode date => rfl

end Moments

/-! ## Isolation -/

/-- On two stores with the same part of the strategy a confined request answers the same, and leaves
    both with the same part. -/
theorem Confined.agree {x : Request α} {s' : Store} (h : Confined strategy x s) (h' : Confined strategy x s')
    (heq : s.only strategy = s'.only strategy) :
    (exec x s).1 = (exec x s').1 ∧ (exec x s).2.only strategy = (exec x s').2.only strategy := by
  have hboth := h.part
  rw [heq, h'.part] at hboth
  exact ⟨(congrArg Prod.fst hboth).symm, (congrArg Prod.snd hboth).symm⟩

theorem Addressed.Concerns.of_agreeOn {r : Addressed} {s' : Store} (hag : Store.AgreeOn strategy s s')
    (hr : r.Concerns strategy s) : r.Concerns strategy s' := by
  have hmoved : ∀ id, (∃ v ∈ s.versions, v.id = id ∧ v.strategy = strategy) →
      ∃ v ∈ s'.versions, v.id = id ∧ v.strategy = strategy := by
    rintro id ⟨v, hv, hid, hs⟩
    exact ⟨v, (hag.versions v hs).mp hv, hid, hs⟩
  cases r with
  | update r => exact hmoved _ hr
  | getSchema version => exact hmoved _ hr
  | _ => trivial

/-- Two stores that runs of writes lead to agree on a strategy, and differ as they may in all else. A
    request of the strategy that comes to both at the same moment answers the same and leaves stores
    that agree on it again; at different moments that is so but for the times in rows. In either store
    the rows of every other strategy and of its versions stay as they are. -/
theorem strategies_are_isolated (execute : String → Except Rejection Schema) (today : Date) (now now' : Instant)
    {s s' : Store} (hs : s.Reachable) (hs' : s'.Reachable) {strategy : Int} (hag : Store.AgreeOn strategy s s')
    (r : Addressed) (hr : r.Concerns strategy s) :
    let p := exec (r.request ⟨execute, now, today⟩ strategy) s
    let p' := exec (r.request ⟨execute, now', today⟩ strategy) s'
    (p.1.map Reply.undated = p'.1.map Reply.undated ∧ Store.AgreeOn strategy p.2.undated p'.2.undated) ∧
      (now = now' → p.1 = p'.1 ∧ Store.AgreeOn strategy p.2 p'.2) ∧
      p.2.others strategy = s.others strategy ∧ p'.2.others strategy = s'.others strategy := by
  intro p p'
  have h := hs.wellFormed
  have h' := hs'.wellFormed
  have hr' := hr.of_agreeOn hag
  have hsame : ∀ env, (exec (r.request env strategy) s).1 = (exec (r.request env strategy) s').1 ∧
      Store.AgreeOn strategy (exec (r.request env strategy) s).2 (exec (r.request env strategy) s').2 := by
    intro env
    obtain ⟨hanswer, hpart⟩ := (confined_addressed h hr).agree (confined_addressed h' hr') (hag.only_eq h h')
    exact ⟨hanswer, Store.agreeOn_of_only_eq hpart⟩
  refine ⟨?_, ?_, (confined_addressed h hr).others, (confined_addressed h' hr').others⟩
  · -- the request is moved in the first store to the moment at which it comes to the second
    have hmoved := exec_moment execute today now now' h r strategy
    obtain ⟨hanswer, hleft⟩ := hsame ⟨execute, now', today⟩
    have hanswer' : p.1.map Reply.undated =
        (exec (r.request ⟨execute, now', today⟩ strategy) s).1.map Reply.undated := congrArg Prod.fst hmoved
    have hleft' : p.2.undated = (exec (r.request ⟨execute, now', today⟩ strategy) s).2.undated :=
      congrArg Prod.snd hmoved
    rw [hanswer', hleft', hanswer]
    exact ⟨rfl, hleft.undated⟩
  · rintro rfl
    exact hsame ⟨execute, now, today⟩

/-- A strategy with one version, beside another strategy whose version has the given content. -/
def beside (content : Content) : Store :=
  Store.run {} [(1, .createStrategy "trend" none), (2, .createStrategy "carry" none),
    (3, .saveVersion 1 ⟨"a", "return {}", [], [], none⟩), (4, .saveVersion 2 content)]

theorem agreeOn_beside (content content' : Content) : Store.AgreeOn 1 (beside content) (beside content') where
  row _ _ := Iff.rfl
  versions v hs := by
    have hrows : ∀ content, (beside content).versions =
        [⟨1, 1, ⟨"a", "return {}", [], [], none⟩, false, 3, 3⟩, ⟨2, 2, content, false, 4, 4⟩] := fun _ => rfl
    have hforeign : ∀ content, v ≠ ⟨2, 2, content, false, 4, 4⟩ := by
      rintro content rfl
      exact absurd hs (by simp)
    simp [hrows, hforeign]
  lastStrategy := rfl
  lastVersion := rfl

/-- A code is free that the other strategy has in one of the stores. -/
theorem code_of_the_other_strategy_is_free :
    let submission : Addressed := .submit "return { run = print }" (some "b") none true
    let one := beside ⟨"b", "return {}", [], [], none⟩
    let other := beside ⟨"c", "return {}", [], [], none⟩
    let env : Surroundings := ⟨fun _ => .ok {}, 5, ⟨2025, 3, 1⟩⟩
    Store.AgreeOn 1 one other ∧ failure? (submission.request env 1) one = none ∧
      (exec (submission.request env 1) one).1 = (exec (submission.request env 1) other).1 ∧
      (exec (submission.request env 1) one).2.others 1 = one.others 1 := by
  intro submission one other env
  have hag : Store.AgreeOn 1 one other := agreeOn_beside _ _
  obtain ⟨-, hsame, hothers, -⟩ :=
    strategies_are_isolated env.execute env.today env.now env.now ⟨_, rfl⟩ ⟨_, rfl⟩ hag submission trivial
  exact ⟨hag, by decide +kernel, (hsame rfl).1, hothers⟩

end Service
end StrategyBench
