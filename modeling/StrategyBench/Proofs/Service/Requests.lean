/-
StrategyBench.Proofs.Service.Requests — requests, as one decision and the writes it leads to.

A request that writes first decides on the store as it is: what a submission saves
(`Submission.content`) and what a revision puts in place (`Revision.content`) are functions of the
store before it. Then it writes. One equation for each request says so (`exec_createStrategy`,
`exec_submit`, `exec_update`, `exec_setMaster`). On a well-formed store the version that was just
saved can always be made the master, so all that is left to fail is the saving (`exec_save`).

A request that reads answers a function of the store (`exec_listVersions`, `exec_getSchema`,
`exec_diff`, `exec_nextCode`).
-/

import StrategyBench.Proofs.Store.WellFormed
import StrategyBench.Service.Basic

namespace StrategyBench.Service

variable {α β : Type}

/-! ## Running a request -/

/-- The outcome of a request, and the store after it. -/
def exec (x : Request α) (s : Store) : Except ServiceError α × Store := StateT.run (ExceptT.run x) s

@[simp] theorem exec_pure (a : α) (s : Store) : exec (pure a) s = (.ok a, s) := rfl
@[simp] theorem exec_fail (e : ServiceError) (s : Store) : exec (fail e : Request α) s = (.error e, s) := rfl
@[simp] theorem exec_store (s : Store) : exec store s = (.ok s, s) := rfl

theorem exec_bind (x : Request α) (f : α → Request β) (s : Store) :
    exec (x >>= f) s = match exec x s with
      | (.ok a, s') => exec (f a) s'
      | (.error e, s') => (.error e, s') := by
  unfold exec ExceptT.run StateT.run
  simp only [bind, ExceptT.bind, ExceptT.mk, StateT.bind, ExceptT.bindCont]
  cases x s with
  | mk result s' => cases result <;> rfl

theorem exec_map (f : α → β) (x : Request α) (s : Store) :
    exec (f <$> x) s = ((exec x s).1.map f, (exec x s).2) := by
  unfold exec ExceptT.run StateT.run
  simp only [Functor.map, ExceptT.map, ExceptT.mk, bind, StateT.bind]
  cases x s with
  | mk result s' => cases result <;> rfl

/-- The error that a request answers, if it fails. -/
def failure? (x : Request α) (s : Store) : Option ServiceError :=
  match (exec x s).1 with
  | .ok _ => none
  | .error e => some e

theorem exec_of_failure {x : Request α} {s : Store} {e : ServiceError} (h : failure? x s = some e) :
    exec x s = (.error e, (exec x s).2) := by
  unfold failure? at h
  split at h
  · cases h
  · rename_i e' he
    obtain rfl := Option.some.inj h
    rw [← he]

theorem exec_of_no_failure {x : Request α} {s : Store} (h : failure? x s = none) :
    ∃ a, exec x s = (.ok a, (exec x s).2) := by
  unfold failure? at h
  split at h
  · rename_i a ha
    exact ⟨a, by rw [← ha]⟩
  · cases h

/-- What a write that answers a row leaves, whether it succeeds or fails. -/
def committed (r : Except StoreError (α × Store)) (s : Store) : Except ServiceError α × Store :=
  match r with
  | .ok (a, s') => (.ok a, s')
  | .error e => (.error (.version e), s)

theorem exec_ofStore (r : Except StoreError α) (s : Store) :
    exec (ofStore r) s = (r.mapError .version, s) := by
  cases r <;> rfl

theorem exec_write (op : Store → Except StoreError (α × Store)) (s : Store) :
    exec (write op) s = committed (op s) s := by
  unfold write
  rw [exec_bind, exec_store]
  simp only [exec_bind, exec_ofStore]
  cases op s with
  | error e => rfl
  | ok p => rfl

/-! ## Decisions -/

/-- A row that has to be there. -/
def found (row : Option α) (e : StoreError) : Except ServiceError α :=
  match row with
  | some a => .ok a
  | none => .error (.version e)

theorem found_eq_ok {row : Option α} {e : StoreError} {a : α} (h : found row e = .ok a) : row = some a := by
  cases row with
  | none => cases h
  | some a' =>
    cases h
    rfl

/-- A code that was asked for, as it is stored. -/
def asked : Option String → Except ServiceError (Option String)
  | none => .ok none
  | some code =>
    if (Text.trim code).isEmpty then .error (.invalidRequest "版本代碼不能為空白")
    else .ok (some (Text.trim code))

/-- What the sandbox makes of a source. -/
def schemaOf (env : Surroundings) (source : String) : Except ServiceError Schema :=
  (env.execute source).mapError .rejected

theorem exec_requireStrategy (id : Int) (s : Store) :
    exec (requireStrategy id) s = (found (s.strategy? id) (.strategyNotFound id), s) := by
  unfold requireStrategy
  rw [exec_bind, exec_store]
  cases h : s.strategy? id <;> simp [h, found]

theorem exec_requireVersion (id : Int) (s : Store) :
    exec (requireVersion id) s = (found (s.version? id) (.versionNotFound id), s) := by
  unfold requireVersion
  rw [exec_bind, exec_store]
  cases h : s.version? id <;> simp [h, found]

theorem exec_requestedCode (code : Option String) (s : Store) :
    exec (requestedCode code) s = (asked code, s) := by
  cases code with
  | none => rfl
  | some code =>
    simp only [requestedCode, asked]
    by_cases h : (Text.trim code).isEmpty = true
    · simp only [h, if_true, exec_fail]
    · simp only [h, Bool.false_eq_true, if_false, exec_pure]

theorem exec_runScript (env : Surroundings) (source : String) (s : Store) :
    exec (runScript env source) s = (schemaOf env source, s) := by
  unfold runScript schemaOf
  cases env.execute source <;> rfl

/-- The code that `chooseCode` chooses. -/
def chosenCode (env : Surroundings) (s : Store) (strategy : Int) : Option String → Except StoreError String
  | some code => (s.ensureCodeAvailable strategy code none).map fun _ => code
  | none => s.nextCode strategy env.today

/-- What a submission saves. -/
def Submission.content (env : Surroundings) (r : Submission) (s : Store) : Except ServiceError Content := do
  let _ ← found (s.strategy? r.strategy) (.strategyNotFound r.strategy)
  let requested ← asked r.code
  let schema ← schemaOf env r.source
  let code ← (chosenCode env s r.strategy requested).mapError .version
  .ok ⟨code, r.source, schema.parameters, schema.factors, r.remark⟩

/-- The source of a revision with what the sandbox makes of it, if one is given. -/
def rerunOf (env : Surroundings) : Option String → Except ServiceError (Option (String × Schema))
  | some source => (schemaOf env source).map fun schema => some (source, schema)
  | none => .ok none

/-- Whether `checkCode` lets the version have the code. -/
def codeCheck (s : Store) (v : Version) : Option String → Except StoreError Unit
  | some code =>
    if code = v.content.code then .ok () else s.ensureCodeAvailable v.strategy code (some v.id)
  | none => .ok ()

/-- What a revision puts in place. -/
def Revision.content (env : Surroundings) (r : Revision) (s : Store) : Except ServiceError Content := do
  let v ← found (s.version? r.version) (.versionNotFound r.version)
  let requested ← asked r.code
  let rerun ← rerunOf env r.source
  (codeCheck s v requested).mapError .version
  .ok (replaced v.content requested rerun r.remark)

/-- What a submission saves is what the sandbox makes of its source, under a code that was free. -/
theorem Submission.content_eq_ok {env : Surroundings} {r : Submission} {s : Store} {c : Content}
    (h : r.content env s = .ok c) :
    ∃ requested schema code, asked r.code = .ok requested ∧ env.execute r.source = .ok schema ∧
      chosenCode env s r.strategy requested = .ok code ∧
      c = ⟨code, r.source, schema.parameters, schema.factors, r.remark⟩ := by
  unfold Submission.content at h
  obtain ⟨t, -, h⟩ := bind_eq_ok h
  obtain ⟨requested, hasked, h⟩ := bind_eq_ok h
  obtain ⟨schema, hschema, h⟩ := bind_eq_ok h
  obtain ⟨code, hcode, h⟩ := bind_eq_ok h
  cases h
  exact ⟨requested, schema, code, hasked, mapError_eq_ok hschema, mapError_eq_ok hcode, rfl⟩

/-- What a revision puts in place is the content it finds, with the parts that are given replaced. -/
theorem Revision.content_eq_ok {env : Surroundings} {r : Revision} {s : Store} {c : Content}
    (h : r.content env s = .ok c) :
    ∃ v requested rerun, s.version? r.version = some v ∧ asked r.code = .ok requested ∧
      rerunOf env r.source = .ok rerun ∧ codeCheck s v requested = .ok () ∧
      c = replaced v.content requested rerun r.remark := by
  unfold Revision.content at h
  obtain ⟨v, hv, h⟩ := bind_eq_ok h
  obtain ⟨requested, hasked, h⟩ := bind_eq_ok h
  obtain ⟨rerun, hrerun, h⟩ := bind_eq_ok h
  obtain ⟨⟨⟩, hcode, h⟩ := bind_eq_ok h
  cases h
  exact ⟨v, requested, rerun, found_eq_ok hv, hasked, hrerun, mapError_eq_ok hcode, rfl⟩

theorem exec_chooseCode (env : Surroundings) (strategy : Int) (requested : Option String) (s : Store) :
    exec (chooseCode env strategy requested) s = ((chosenCode env s strategy requested).mapError .version, s) := by
  cases requested with
  | none =>
    unfold chooseCode
    rw [exec_bind, exec_store]
    exact exec_ofStore _ s
  | some code =>
    simp only [chooseCode, chosenCode]
    rw [exec_bind, exec_store]
    simp only [exec_bind, exec_ofStore]
    cases s.ensureCodeAvailable strategy code none <;> rfl

theorem exec_rerun (env : Surroundings) (source : Option String) (s : Store) :
    exec (rerun env source) s = (rerunOf env source, s) := by
  cases source with
  | none => rfl
  | some source =>
    simp only [rerun, rerunOf]
    rw [exec_bind, exec_runScript]
    cases schemaOf env source <;> rfl

theorem exec_checkCode (v : Version) (requested : Option String) (s : Store) :
    exec (checkCode v requested) s = ((codeCheck s v requested).mapError .version, s) := by
  cases requested with
  | none => rfl
  | some code =>
    simp only [checkCode, codeCheck]
    by_cases hcode : code = v.content.code
    · simp only [hcode, if_true, exec_pure, mapError_ok]
    · simp only [hcode, if_false]
      rw [exec_bind, exec_store]
      exact exec_ofStore _ s

/-! ## One equation for each request -/

theorem exec_createStrategy (env : Surroundings) (name : String) (description : Option String) (s : Store) :
    exec (createStrategy env name description) s =
      if (Text.trim name).isEmpty then (.error (.invalidRequest "策略名稱不能為空"), s)
      else
        let t := s.newStrategy env.now (Text.trim name) description
        (.ok t, s.withStrategy t) := by
  simp only [createStrategy]
  by_cases h : (Text.trim name).isEmpty = true
  · simp only [h, if_true, exec_fail]
  · simp only [h, Bool.false_eq_true, if_false, exec_bind, exec_store]
    rfl

theorem exec_setMaster (env : Surroundings) (strategy version : Int) (s : Store) :
    exec (setMaster env strategy version) s =
      committed ((s.setMaster env.now strategy version).map ((), ·)) s := by
  unfold setMaster
  rw [exec_write]

/-- The part of a submission that writes. -/
def Submission.save (env : Surroundings) (r : Submission) (content : Content) : Request Version := do
  let saved ← write (·.saveVersion env.now r.strategy content)
  if r.isMaster then
    setMaster env r.strategy saved.id
    requireVersion saved.id
  else pure saved

theorem exec_submit_eq_save (env : Surroundings) (r : Submission) (s : Store) :
    exec (submit env r) s = match r.content env s with
      | .error e => (.error e, s)
      | .ok content => exec (r.save env content) s := by
  unfold submit Submission.content
  rw [exec_bind, exec_requireStrategy]
  cases found (s.strategy? r.strategy) (.strategyNotFound r.strategy) with
  | error e => rfl
  | ok t =>
    simp only [ok_bind]
    rw [exec_bind, exec_requestedCode]
    cases asked r.code with
    | error e => rfl
    | ok requested =>
      simp only [ok_bind]
      rw [exec_bind, exec_runScript]
      cases schemaOf env r.source with
      | error e => rfl
      | ok schema =>
        simp only [ok_bind]
        rw [exec_bind, exec_chooseCode]
        cases chosenCode env s r.strategy requested <;> rfl

theorem exec_update (env : Surroundings) (r : Revision) (s : Store) :
    exec (update env r) s = match r.content env s with
      | .error e => (.error e, s)
      | .ok content => committed (s.updateVersion env.now r.version content) s := by
  unfold update Revision.content
  rw [exec_bind, exec_requireVersion]
  cases hv : found (s.version? r.version) (.versionNotFound r.version) with
  | error e => rfl
  | ok v =>
    simp only [ok_bind]
    rw [exec_bind, exec_requestedCode]
    cases asked r.code with
    | error e => rfl
    | ok requested =>
      simp only [ok_bind]
      rw [exec_bind, exec_rerun]
      cases rerunOf env r.source with
      | error e => rfl
      | ok rerun =>
        -- the version is read again once the script has run, and is still there
        simp only [ok_bind]
        rw [exec_bind, exec_requireVersion, hv]
        simp only
        rw [exec_bind, exec_checkCode]
        cases codeCheck s v requested with
        | error e => rfl
        | ok _ => exact exec_write _ s

theorem exec_save {s : Store} (h : s.WellFormed) (env : Surroundings) (r : Submission) (content : Content) :
    exec (r.save env content) s = match s.saveVersion env.now r.strategy content with
      | .error e => (.error (.version e), s)
      | .ok (v, s') =>
        if r.isMaster then
          (.ok (v.flagged r.strategy v.id env.now), s'.flag r.strategy v.id env.now)
        else (.ok v, s') := by
  unfold Submission.save
  rw [exec_bind, exec_write]
  cases hs : s.saveVersion env.now r.strategy content with
  | error e => rfl
  | ok p =>
    obtain ⟨v, s'⟩ := p
    simp only [committed]
    split
    · obtain ⟨hflag, hread⟩ := Store.setMaster_of_saveVersion h hs
      rw [exec_bind, exec_setMaster, hflag]
      simp only [Except.map, committed]
      rw [exec_requireVersion, hread]
      rfl
    · rfl

/-- On a well-formed store, a submission decides, saves, and flags what it saved. -/
theorem exec_submit {s : Store} (h : s.WellFormed) (env : Surroundings) (r : Submission) :
    exec (submit env r) s = match r.content env s with
      | .error e => (.error e, s)
      | .ok content =>
        match s.saveVersion env.now r.strategy content with
        | .error e => (.error (.version e), s)
        | .ok (v, s') =>
          if r.isMaster then
            (.ok (v.flagged r.strategy v.id env.now), s'.flag r.strategy v.id env.now)
          else (.ok v, s') := by
  rw [exec_submit_eq_save]
  cases r.content env s with
  | error e => rfl
  | ok content => exact exec_save h env r content

/-! ## Requests that read -/

theorem exec_listVersions (strategy : Int) (s : Store) :
    exec (listVersions strategy) s =
      ((found (s.strategy? strategy) (.strategyNotFound strategy)).map fun _ => s.versionsOf strategy, s) := by
  unfold listVersions
  rw [exec_bind, exec_requireStrategy]
  cases found (s.strategy? strategy) (.strategyNotFound strategy) <;> rfl

theorem exec_getSchema (version : Int) (s : Store) :
    exec (getSchema version) s = ((found (s.version? version) (.versionNotFound version)).map Version.schema, s) := by
  unfold getSchema
  rw [exec_bind, exec_requireVersion]
  cases found (s.version? version) (.versionNotFound version) <;> rfl

theorem exec_requireOwned (strategy id : Int) (s : Store) :
    exec (requireOwned strategy id) s =
      (found ((s.version? id).filter (·.strategy = strategy)) (.versionNotFound id), s) := by
  unfold requireOwned
  rw [exec_bind, exec_requireVersion]
  cases s.version? id with
  | none => rfl
  | some v => by_cases hs : v.strategy = strategy <;> simp [found, Option.filter, hs]

theorem exec_diff (strategy base compare : Int) (s : Store) :
    exec (diff strategy base compare) s = (do
      let base ← found ((s.version? base).filter (·.strategy = strategy)) (.versionNotFound base)
      let compare ← found ((s.version? compare).filter (·.strategy = strategy)) (.versionNotFound compare)
      .ok (diffOf base compare), s) := by
  unfold diff
  rw [exec_bind, exec_requireOwned]
  cases found ((s.version? base).filter (·.strategy = strategy)) (.versionNotFound base) with
  | error e => rfl
  | ok b =>
    simp only [ok_bind]
    rw [exec_bind, exec_requireOwned]
    cases found ((s.version? compare).filter (·.strategy = strategy)) (.versionNotFound compare) <;> rfl

theorem exec_nextCode (strategy : Int) (date : Date) (s : Store) :
    exec (nextCode strategy date) s = ((s.nextCode strategy date).mapError .version, s) := by
  unfold nextCode
  rw [exec_bind, exec_store]
  exact exec_ofStore _ s

end StrategyBench.Service
