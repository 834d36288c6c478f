/-
StrategyBench.Proofs.Service.Submissions — what becomes of a submission that the sandbox accepts.

A code that a submission decides on is free (`free_of_chosenCode`), so that the write which follows finds it
free too and saves the version (`exec_submit_of_free`). All that is left to decide are the codes that the
strategy has: without a code the next one is taken, which is always free, and with a code it is that one or
a conflict (`submission_is_decided_by_codes`).
-/

import Mathlib.Algebra.Group.Int.Defs
import StrategyBench.Proofs.Service.Runs
import StrategyBench.Proofs.Store.Codes

namespace StrategyBench.Service

variable {env : Surroundings} {s : Store} {r : Submission} {code : String} {schema : Schema}

/-! ## Free codes -/

/-- The code that is chosen is free. -/
theorem free_of_chosenCode (h : s.WellFormed) (hrow : ∃ t ∈ s.strategies, t.id = r.strategy)
    (hfew : s.versions.length < VersionCode.maxSequence) {requested : Option String}
    (hchosen : chosenCode env s r.strategy requested = .ok code) :
    ∀ v ∈ s.versions, v.strategy = r.strategy → v.content.code ≠ code := by
  cases requested with
  | none =>
    obtain ⟨next, hnext, hfree⟩ := Store.nextCode_free h hrow hfew env.today
    obtain rfl : next = code := Except.ok.inj (hnext.symm.trans hchosen)
    exact hfree
  | some requested =>
    obtain ⟨⟨⟩, hcheck, rfl⟩ := map_eq_ok hchosen
    intro v hv hs hcode
    cases Store.ensureCodeAvailable_eq_ok_iff.mp hcheck v hv hs hcode

theorem saveVersion_of_free (h : s.WellFormed) (hrow : ∃ t ∈ s.strategies, t.id = r.strategy) {content : Content}
    (hfree : ∀ v ∈ s.versions, v.strategy = r.strategy → v.content.code ≠ content.code) (now : Instant) :
    s.saveVersion now r.strategy content =
      .ok (s.newVersion now r.strategy content, s.withVersion (s.newVersion now r.strategy content)) :=
  (Store.saveVersion_eq_ok_iff h).mpr ⟨hrow, hfree, rfl, rfl⟩

/-- Of a script that the sandbox accepts only the code is left to decide on. -/
theorem submission_content_of_accepted (h : s.WellFormed) (hrow : ∃ t ∈ s.strategies, t.id = r.strategy)
    {requested : Option String} (hasked : asked r.code = .ok requested)
    (hschema : env.execute r.source = .ok schema) :
    r.content env s = ((chosenCode env s r.strategy requested).mapError .version).map fun code =>
      ⟨code, r.source, schema.parameters, schema.factors, r.remark⟩ := by
  obtain ⟨t, ht⟩ := Store.exists_strategy? h hrow
  unfold Submission.content schemaOf
  rw [ht, hasked, hschema]
  simp only [found, ok_bind, mapError_ok]
  cases chosenCode env s r.strategy requested <;> rfl

/-! ## Versions that are saved -/

/-- One version is added, with an id that none has yet. Those there were stay as they are, but that the flag of the
    strategy's master goes to the new version if it asks for it. -/
structure Saved (r : Submission) (now : Instant) (code : String) (schema : Schema) (s s' : Store) (v : Version) :
    Prop where
  row : v = { id := s.lastVersion + 1, strategy := r.strategy
              content := ⟨code, r.source, schema.parameters, schema.factors, r.remark⟩
              isMaster := r.isMaster, createdAt := now, updatedAt := now }
  fresh : ∀ w ∈ s.versions, w.id ≠ v.id
  versions : s'.versions =
    (s.versions.map fun w => if r.isMaster then w.flagged r.strategy v.id now else w) ++ [v]

theorem exec_submit_of_free (env : Surroundings) (h : s.WellFormed) (hrow : ∃ t ∈ s.strategies, t.id = r.strategy)
    {requested : Option String} (hasked : asked r.code = .ok requested) (hschema : env.execute r.source = .ok schema)
    (hcode : chosenCode env s r.strategy requested = .ok code)
    (hfree : ∀ v ∈ s.versions, v.strategy = r.strategy → v.content.code ≠ code) :
    ∃ v s', exec (submit env r) s = (.ok v, s') ∧ Saved r env.now code schema s s' v := by
  have hfresh : ∀ w ∈ s.versions, w.id ≠ s.lastVersion + 1 := fun w hw => by
    have := h.versionBound w hw
    omega
  have hexec := exec_submit h env r
  rw [submission_content_of_accepted h hrow hasked hschema, hcode] at hexec
  simp only [mapError_ok, Except.map] at hexec
  rw [saveVersion_of_free h hrow hfree] at hexec
  by_cases hmaster : r.isMaster = true
  · simp only [hmaster, if_true] at hexec
    refine ⟨_, _, hexec, ?_, fun w hw => ?_, ?_⟩
    · simp [Store.newVersion, Version.flagged, hmaster]
    · rw [Version.flagged_id]
      exact hfresh w hw
    · simp [Store.versions_withVersion h, hmaster]
  · simp only [hmaster] at hexec
    refine ⟨_, _, hexec, ?_, hfresh, ?_⟩
    · simp [Store.newVersion, hmaster]
    · simp [Store.versions_withVersion h, hmaster]

theorem exec_submit_of_taken (h : s.WellFormed) (hrow : ∃ t ∈ s.strategies, t.id = r.strategy)
    (hasked : asked r.code = .ok (some code)) (hschema : env.execute r.source = .ok schema)
    (htaken : ∃ v ∈ s.versions, v.strategy = r.strategy ∧ v.content.code = code) :
    exec (submit env r) s = (.error (.version (.versionConflict code)), s) := by
  have hcode : s.codeTaken r.strategy code none = true := by
    obtain ⟨v, hv, hs, rfl⟩ := htaken
    rw [← Bool.not_eq_false, Store.codeTaken_eq_false_iff]
    intro hfree
    cases hfree v hv hs rfl
  have hchosen : chosenCode env s r.strategy (some code) = .error (.versionConflict code) := by
    simp only [chosenCode]
    rw [Store.ensureCodeAvailable_eq, if_pos hcode]
    rfl
  rw [exec_submit h, submission_content_of_accepted h hrow hasked hschema, hchosen]
  rfl

theorem asked_of_not_blank (h : Text.trim code ≠ "") : asked (some code) = .ok (some (Text.trim code)) := by
  rw [asked, if_neg (mt String.isEmpty_iff.mp h)]

/-! ## The outcome -/

/-- What becomes of a submission to a strategy that there is, of a script that the sandbox accepts, is told by the
    codes that the strategy's versions have. Without a code it is saved under the next code of the day. With one it is
    saved under the code as trimmed, or fails with a conflict if a version of the strategy has that code. And a code
    that is found free, or is the next one, is one that the version can be saved under. Ids have 32 bits, so that the
    one that is handed out must still be one of these. -/
theorem submission_is_decided_by_codes (execute : String → Except Rejection Schema) (calls : List Arrival)
    (now : Instant) (today : Date) (r : Submission) (schema : Schema)
    (hrow : ∃ t ∈ (serve execute {} calls).strategies, t.id = r.strategy) (hschema : execute r.source = .ok schema)
    (hids : (serve execute {} calls).lastVersion + 1 < 2 ^ 31) :
    let env : Surroundings := ⟨execute, now, today⟩
    let s := serve execute {} calls
    (r.code = none → ∃ code v s', exec (nextCode r.strategy today) s = (.ok code, s) ∧
        exec (submit env r) s = (.ok v, s') ∧ Saved r now code schema s s' v) ∧
      (∀ code, r.code = some code → Text.trim code ≠ "" →
        ((∃ v ∈ s.versions, v.strategy = r.strategy ∧ v.content.code = Text.trim code) →
          exec (submit env r) s = (.error (.version (.versionConflict (Text.trim code))), s)) ∧
        ((∀ v ∈ s.versions, v.strategy = r.strategy → v.content.code ≠ Text.trim code) →
          ∃ v s', exec (submit env r) s = (.ok v, s') ∧ Saved r now (Text.trim code) schema s s' v)) ∧
      ∀ content, (s.ensureCodeAvailable r.strategy content.code none = .ok () ∨
          s.nextCode r.strategy today = .ok content.code) →
        ∃ v s', s.saveVersion now r.strategy content = .ok (v, s') := by
  intro env s
  have h : s.WellFormed := wellFormed_serve execute calls
  have hfew : s.versions.length < VersionCode.maxSequence := by
    have hcount : s.lastVersion = s.versions.length := (reachable_serve execute calls).lastVersion_eq
    have hbound : s.lastVersion + 1 < 2 ^ 31 := hids
    have hmax : VersionCode.maxSequence = 2 ^ 32 - 1 := rfl
    omega
  refine ⟨fun hcode => ?_, fun code hcode hblank => ⟨fun htaken => ?_, fun hfree => ?_⟩, fun content hcheck => ?_⟩
  · obtain ⟨code, hnext, hfree⟩ := Store.nextCode_free h hrow hfew today
    have hasked : asked r.code = .ok none := by rw [hcode]; rfl
    obtain ⟨v, s', hexec, hsaved⟩ := exec_submit_of_free env h hrow hasked hschema hnext hfree
    exact ⟨code, v, s', by rw [exec_nextCode, hnext]; rfl, hexec, hsaved⟩
  · exact exec_submit_of_taken h hrow (by rw [hcode]; exact asked_of_not_blank hblank) hschema htaken
  · have hasked : asked r.code = .ok (some (Text.trim code)) := by rw [hcode]; exact asked_of_not_blank hblank
    have hcheck : s.ensureCodeAvailable r.strategy (Text.trim code) none = .ok () :=
      Store.ensureCodeAvailable_eq_ok_iff.mpr fun v hv hs heq => absurd heq (hfree v hv hs)
    refine exec_submit_of_free env h hrow hasked hschema ?_ hfree
    rw [chosenCode, hcheck]
    rfl
  · have hchosen : ∃ requested, chosenCode env s r.strategy requested = .ok content.code := by
      rcases hcheck with hcheck | hnext
      · exact ⟨some content.code, by rw [chosenCode, hcheck]; rfl⟩
      · exact ⟨none, hnext⟩
    obtain ⟨requested, hchosen⟩ := hchosen
    exact ⟨_, _, saveVersion_of_free h hrow (free_of_chosenCode h hrow hfew hchosen) now⟩

/-- A script for the strategy that has one version, as its master, under the code `a`. -/
def another (code : Option String) : Submission := ⟨1, "return { run = print }", code, some "again", true⟩

/-- Without a code the script gets the first one of the day, whatever code the version before it has; the code of that
    version is taken, blanks around it or not. -/
theorem another_script_for_trend :
    (∃ v s', exec (nextCode 1 afterTrend.today) (serve twoScripts {} trend) =
        (.ok "v20250302.1", serve twoScripts {} trend) ∧
      exec (submit afterTrend (another none)) (serve twoScripts {} trend) = (.ok v, s') ∧
      Saved (another none) 3 "v20250302.1" {} (serve twoScripts {} trend) s' v) ∧
    exec (submit afterTrend (another (some " a "))) (serve twoScripts {} trend) =
      (.error (.version (.versionConflict "a")), serve twoScripts {} trend) := by
  have hrow : ∃ t ∈ (serve twoScripts {} trend).strategies, t.id = 1 := by decide +kernel
  have hids : (serve twoScripts {} trend).lastVersion + 1 < 2 ^ 31 := by decide +kernel
  obtain ⟨hnone, -, -⟩ :=
    submission_is_decided_by_codes twoScripts trend 3 ⟨2025, 3, 2⟩ (another none) {} hrow rfl hids
  obtain ⟨-, hsome, -⟩ :=
    submission_is_decided_by_codes twoScripts trend 3 ⟨2025, 3, 2⟩ (another (some " a ")) {} hrow rfl hids
  constructor
  · obtain ⟨code, v, s', hnext, hsubmit, hsaved⟩ := hnone rfl
    have hcode : (exec (nextCode 1 afterTrend.today) (serve twoScripts {} trend)).1.toOption = some "v20250302.1" := by
      decide +kernel
    obtain rfl : code = "v20250302.1" := by
      have hanswer := congrArg (fun p => p.1.toOption) hnext
      exact Option.some.inj (hanswer.symm.trans hcode)
    exact ⟨v, s', hnext, hsubmit, hsaved⟩
  · have htrim : Text.trim " a " = "a" := by decide +kernel
    obtain ⟨htaken, -⟩ := hsome " a " rfl (by rw [htrim]; decide)
    rw [htrim] at htaken
    exact htaken (by decide +kernel)

end StrategyBench.Service
