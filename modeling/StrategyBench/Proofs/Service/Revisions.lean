/-
StrategyBench.Proofs.Service.Revisions — what a revision changes, and revisions in either order.

What a revision puts in place is settled by the request and by the codes of the other versions
(`Revision.parts`); of the version itself nothing is asked, since its own code never stands in its way. So
the write that follows always succeeds, and replaces the parts that were given (`exec_update_of_mem`).

Another revision of the same version leaves alone what the parts are settled by (`parts_after_update`). Each
of two revisions therefore comes to the same in either order, and where no part is given by both, so does
the version (`revisions_are_tight_and_commute`).
-/

import StrategyBench.Proofs.Service.Runs
import StrategyBench.Proofs.Store.Codes

namespace StrategyBench

namespace Store

variable {s : Store}

/-- A version has its own code to itself, so that a write which keeps the code finds it free. -/
theorem WellFormed.ensure_own_code (h : s.WellFormed) {v : Version} (hv : v ∈ s.versions) :
    s.ensureCodeAvailable v.strategy v.content.code (some v.id) = .ok () :=
  ensureCodeAvailable_eq_ok_iff.mpr fun w hw hs hcode => congrArg some (h.codes w hw v hv hs hcode)

/-- What one version has for its code makes no difference to whether it could have another. -/
theorem codeTaken_revise (id : Int) (content : Content) (now : Instant) (strategy : Int) (code : String) :
    (s.revise id content now).codeTaken strategy code (some id) = s.codeTaken strategy code (some id) := by
  rw [codeTaken, codeTaken, versions_revise, List.any_map]
  congr 1
  funext v
  by_cases hid : v.id = id <;> simp [Version.revised, hid]

theorem revise_revise (id : Int) (content content' : Content) (now now' : Instant) :
    (s.revise id content now).revise id content' now' = s.revise id content' now' := by
  have hrow : ∀ v : Version, (v.revised id content now).revised id content' now' = v.revised id content' now' := by
    intro v
    by_cases hid : v.id = id <;> simp [Version.revised, hid]
  simp only [revise, Rows.map_map, Function.comp_def, hrow]

/-- The store, without the moment at which the version was last written. -/
def unstamped (id : Int) (s : Store) : Store :=
  { s with versionRows := s.versionRows.map fun v => if v.id = id then { v with updatedAt := 0 } else v }

theorem unstamped_revise (id : Int) (content : Content) (now : Instant) :
    (s.revise id content now).unstamped id = (s.unstamped id).revise id content 0 := by
  have hrow : ∀ v : Version,
      (if (v.revised id content now).id = id then { v.revised id content now with updatedAt := 0 }
        else v.revised id content now) =
      Version.revised id content 0 (if v.id = id then { v with updatedAt := 0 } else v) := by
    intro v
    by_cases hid : v.id = id <;> simp [Version.revised, hid]
  simp only [unstamped, revise, Rows.map_map, Function.comp_def, hrow]

/-- A version that is given the content it has stays as it is, but for the moment. -/
theorem unstamped_revise_self (h : s.WellFormed) {v : Version} (hv : v ∈ s.versions) :
    (s.unstamped v.id).revise v.id v.content 0 = s.unstamped v.id := by
  simp only [unstamped, revise, Rows.map_map]
  congr 1
  refine Rows.map_congr fun w hw => ?_
  by_cases hid : w.id = v.id
  · obtain rfl := h.versionKeys.eq_of_key_eq hw hv hid
    simp [Version.revised]
  · simp [Version.revised, hid]

end Store

namespace Service

variable {env : Surroundings} {s s' : Store} {v : Version} {r r' : Revision}

/-! ## Parts -/

/-- The parts of a version that a revision replaces. -/
structure Parts where
  code : Option String
  rerun : Option (String × Schema)
  remark : Option String

/-- The content with the parts in place. -/
def Parts.into (p : Parts) (c : Content) : Content := replaced c p.code p.rerun p.remark

/-- No other version of the strategy has the code. -/
def freeFor (s : Store) (strategy id : Int) : Option String → Except StoreError Unit
  | some code => s.ensureCodeAvailable strategy code (some id)
  | none => .ok ()

/-- The parts that a revision of a version of the strategy puts in place. -/
def Revision.parts (env : Surroundings) (r : Revision) (s : Store) (strategy : Int) : Except ServiceError Parts := do
  let code ← asked r.code
  let rerun ← rerunOf env r.source
  (freeFor s strategy r.version code).mapError .version
  .ok ⟨code, rerun, r.remark⟩

theorem Revision.parts_eq_ok {strategy : Int} {p : Parts} (h : r.parts env s strategy = .ok p) :
    asked r.code = .ok p.code ∧ rerunOf env r.source = .ok p.rerun ∧
      freeFor s strategy r.version p.code = .ok () ∧ p.remark = r.remark := by
  unfold Revision.parts at h
  obtain ⟨code, hcode, h⟩ := bind_eq_ok h
  obtain ⟨rerun, hrerun, h⟩ := bind_eq_ok h
  obtain ⟨⟨⟩, hfree, h⟩ := bind_eq_ok h
  cases h
  exact ⟨hcode, hrerun, mapError_eq_ok hfree, rfl⟩

theorem codeCheck_eq_freeFor (h : s.WellFormed) (hv : v ∈ s.versions) (code : Option String) :
    codeCheck s v code = freeFor s v.strategy v.id code := by
  cases code with
  | none => rfl
  | some code =>
    by_cases hown : code = v.content.code
    · rw [codeCheck, if_pos hown, freeFor, hown, h.ensure_own_code hv]
    · rw [codeCheck, if_neg hown, freeFor]

/-- What a revision puts in place is the content of its version with the parts replaced. -/
theorem Revision.content_eq_parts (h : s.WellFormed) (hv : v ∈ s.versions) (hid : v.id = r.version) :
    r.content env s = (r.parts env s v.strategy).map (·.into v.content) := by
  unfold Revision.content Revision.parts
  rw [← hid, Store.version?_of_mem h hv, found, ok_bind]
  cases asked r.code with
  | error e => rfl
  | ok code =>
    cases rerunOf env r.source with
    | error e => rfl
    | ok rerun =>
      simp only [ok_bind]
      rw [codeCheck_eq_freeFor h hv]
      cases freeFor s v.strategy v.id code <;> rfl

/-- The write finds the code free that was found free before it, and the one that the version has. -/
theorem updateVersion_of_parts (h : s.WellFormed) (hv : v ∈ s.versions) (hid : v.id = r.version) {p : Parts}
    (hp : r.parts env s v.strategy = .ok p) (now : Instant) :
    s.updateVersion now r.version (p.into v.content) =
      .ok (v.revised r.version (p.into v.content) now, s.revise r.version (p.into v.content) now) := by
  have hfree : s.ensureCodeAvailable v.strategy (p.into v.content).code (some v.id) = .ok () := by
    obtain ⟨-, -, hfree, -⟩ := Revision.parts_eq_ok hp
    rw [← hid] at hfree
    cases hcode : p.code with
    | none =>
      rw [Parts.into, hcode]
      exact h.ensure_own_code hv
    | some code =>
      rw [hcode] at hfree
      rw [Parts.into, hcode]
      exact hfree
  rw [Store.ensureCodeAvailable_eq, guarded_eq_ok_iff] at hfree
  rw [← hid, Store.updateVersion_of_mem h hv, if_neg hfree.1]

/-- A revision fails where its parts cannot be settled on, and else succeeds. -/
theorem exec_update_of_mem (h : s.WellFormed) (hv : v ∈ s.versions) (hid : v.id = r.version) :
    exec (update env r) s = match r.parts env s v.strategy with
      | .error e => (.error e, s)
      | .ok p =>
        (.ok (v.revised r.version (p.into v.content) env.now), s.revise r.version (p.into v.content) env.now) := by
  rw [exec_update, Revision.content_eq_parts h hv hid]
  cases hp : r.parts env s v.strategy with
  | error e => rfl
  | ok p =>
    simp only [Except.map]
    rw [updateVersion_of_parts h hv hid hp]
    rfl

theorem exec_update_of_missing (h : s.WellFormed) (hmissing : ¬∃ v ∈ s.versions, v.id = r.version) :
    exec (update env r) s = (.error (.version (.versionNotFound r.version)), s) := by
  rw [exec_update, Revision.content, (Store.version?_eq_none_iff h).mpr hmissing]
  rfl

/-! ## What a revision changes -/

/-- The row of a version, once the parts that a revision gives are in place of those it had. -/
structure Revised (execute : String → Except Rejection Schema) (r : Revision) (now : Instant) (old v : Version) :
    Prop where
  frame : v = { old with content := v.content, updatedAt := now }
  code : v.content.code = (r.code.map Text.trim).getD old.content.code
  kept : r.source = none → v.content.source = old.content.source ∧ v.schema = old.schema
  rerun : ∀ source, r.source = some source → v.content.source = source ∧ execute source = .ok v.schema
  remark : v.content.remark = r.remark.or old.content.remark

theorem asked_eq_ok {requested code : Option String} (h : asked requested = .ok code) :
    code = requested.map Text.trim := by
  cases requested with
  | none => exact (Except.ok.inj h).symm
  | some requested => exact (Except.ok.inj (guarded_eq_ok_iff.mp h).2).symm

theorem revised_of_parts (hid : v.id = r.version) {p : Parts} (hp : r.parts env s v.strategy = .ok p) :
    Revised env.execute r env.now v (v.revised r.version (p.into v.content) env.now) := by
  obtain ⟨hcode, hrerun, -, hremark⟩ := Revision.parts_eq_ok hp
  have hrow : v.revised r.version (p.into v.content) env.now =
      { v with content := p.into v.content, updatedAt := env.now } := if_pos hid
  rw [hrow]
  refine ⟨rfl, ?_, fun hsource => ?_, fun source hsource => ?_, ?_⟩
  · rw [← asked_eq_ok hcode]
    rfl
  · rw [hsource] at hrerun
    obtain hnone : none = p.rerun := Except.ok.inj hrerun
    simp [Parts.into, replaced, Version.schema, ← hnone]
  · rw [hsource] at hrerun
    obtain ⟨schema, hschema, hsome⟩ := map_eq_ok hrerun
    refine ⟨?_, (mapError_eq_ok hschema).trans ?_⟩ <;> simp [Parts.into, replaced, Version.schema, ← hsome]
  · rw [← hremark]
    rfl

/-- A revision that succeeds changes the row of its version, and nothing else. -/
theorem revised_of_update (h : s.WellFormed) (hexec : exec (update env r) s = (.ok v, s')) :
    ∃ old ∈ s.versions, old.id = r.version ∧ Revised env.execute r env.now old v ∧
      s' = { s with versionRows := s.versionRows.map fun w => if w.id = r.version then v else w } := by
  by_cases hthere : ∃ old ∈ s.versions, old.id = r.version
  · obtain ⟨old, hold, hid⟩ := hthere
    rw [exec_update_of_mem h hold hid] at hexec
    cases hp : r.parts env s old.strategy with
    | error e =>
      rw [hp] at hexec
      cases hexec
    | ok p =>
      rw [hp] at hexec
      cases hexec
      refine ⟨old, hold, hid, revised_of_parts hid hp, ?_⟩
      rw [Store.revise]
      congr 1
      refine Rows.map_congr fun w hw => ?_
      by_cases hw' : w.id = r.version
      · rw [if_pos hw', h.versionKeys.eq_of_key_eq hw hold (hw'.trans hid.symm)]
      · rw [if_neg hw', Version.revised, if_neg hw']
  · rw [exec_update_of_missing h hthere] at hexec
    cases hexec

/-! ## One revision after another -/

/-- No part is given by both. -/
def Revision.Disjoint (r r' : Revision) : Prop :=
  (r.code = none ∨ r'.code = none) ∧ (r.source = none ∨ r'.source = none) ∧ (r.remark = none ∨ r'.remark = none)

/-- The content that a revision leaves: the one there was, if no parts were settled on. -/
def leaves (c : Content) : Except ServiceError Parts → Content
  | .ok p => p.into c
  | .error _ => c

theorem into_comm {p q : Parts} (hcode : p.code = none ∨ q.code = none) (hrerun : p.rerun = none ∨ q.rerun = none)
    (hremark : p.remark = none ∨ q.remark = none) (c : Content) : p.into (q.into c) = q.into (p.into c) := by
  obtain ⟨code, rerun, remark⟩ := p
  obtain ⟨code', rerun', remark'⟩ := q
  simp only [Parts.into, replaced, Content.mk.injEq]
  refine ⟨?_, ?_, ?_, ?_, ?_⟩
  · rcases hcode with rfl | rfl <;> rfl
  · rcases hrerun with rfl | rfl <;> rfl
  · rcases hrerun with rfl | rfl <;> rfl
  · rcases hrerun with rfl | rfl <;> rfl
  · rcases hremark with rfl | rfl <;> simp

theorem leaves_comm {env' : Surroundings} {strategy : Int} (hdisjoint : r.Disjoint r') (c : Content) :
    leaves (leaves c (r.parts env s strategy)) (r'.parts env' s strategy) =
      leaves (leaves c (r'.parts env' s strategy)) (r.parts env s strategy) := by
  cases hp : r.parts env s strategy with
  | error e => rfl
  | ok p =>
    cases hq : r'.parts env' s strategy with
    | error e => rfl
    | ok q =>
      obtain ⟨hcode, hrerun, -, hremark⟩ := Revision.parts_eq_ok hp
      obtain ⟨hcode', hrerun', -, hremark'⟩ := Revision.parts_eq_ok hq
      obtain ⟨hcodes, hsources, hremarks⟩ := hdisjoint
      -- a part that is not asked for is not settled on
      refine (into_comm ?_ ?_ ?_ c).symm
      · rw [asked_eq_ok hcode, asked_eq_ok hcode', Option.map_eq_none_iff, Option.map_eq_none_iff]
        exact hcodes
      · rcases hsources with hnone | hnone
        · rw [hnone] at hrerun
          exact .inl (Except.ok.inj hrerun).symm
        · rw [hnone] at hrerun'
          exact .inr (Except.ok.inj hrerun').symm
      · rw [hremark, hremark']
        exact hremarks

theorem failure?_update (h : s.WellFormed) (hv : v ∈ s.versions) (hid : v.id = r.version) :
    failure? (update env r) s = match r.parts env s v.strategy with
      | .error e => some e
      | .ok _ => none := by
  rw [failure?, exec_update_of_mem h hv hid]
  cases r.parts env s v.strategy <;> rfl

/-- The moment and the date make no difference to whether a revision fails. -/
theorem failure?_at {execute : String → Except Rejection Schema} (h : s.WellFormed) (hv : v ∈ s.versions)
    (hid : v.id = r.version) (m m' : Instant × Date) :
    failure? (update ⟨execute, m.1, m.2⟩ r) s = failure? (update ⟨execute, m'.1, m'.2⟩ r) s := by
  rw [failure?_update h hv hid, failure?_update h hv hid]
  rfl

theorem unstamped_update (h : s.WellFormed) (hv : v ∈ s.versions) (hid : v.id = r.version) :
    (exec (update env r) s).2.unstamped r.version =
      (s.unstamped r.version).revise r.version (leaves v.content (r.parts env s v.strategy)) 0 := by
  rw [exec_update_of_mem h hv hid]
  cases r.parts env s v.strategy with
  | error e =>
    rw [← hid]
    exact (Store.unstamped_revise_self h hv).symm
  | ok p => exact Store.unstamped_revise ..

theorem wellFormed_update (h : s.WellFormed) (env : Surroundings) (r : Revision) :
    (exec (update env r) s).2.WellFormed := by
  have hafter : (exec (Answer.version <$> update env r) s).2.WellFormed := wellFormed_after h env (.update r)
  rwa [exec_map] at hafter

/-- After a revision the version is found with what the revision leaves. -/
theorem mem_after_update (env : Surroundings) (h : s.WellFormed) (hv : v ∈ s.versions) (hid : v.id = r.version) :
    ∃ w ∈ (exec (update env r) s).2.versions, w.id = v.id ∧ w.strategy = v.strategy ∧
      w.content = leaves v.content (r.parts env s v.strategy) := by
  rw [exec_update_of_mem h hv hid]
  cases r.parts env s v.strategy with
  | error e => exact ⟨v, hv, rfl, rfl, rfl⟩
  | ok p =>
    refine ⟨_, Store.mem_versions_revise.mpr ⟨v, hv, rfl⟩, Version.revised_id .., Version.revised_strategy .., ?_⟩
    rw [Version.revised_content, if_pos hid]
    rfl

/-- What a revision settles on does not depend on whether its version was revised before. -/
theorem parts_after_update {env' : Surroundings} (h : s.WellFormed) (hv : v ∈ s.versions) (hid : v.id = r.version)
    (hsame : r.version = r'.version) :
    r'.parts env' (exec (update env r) s).2 v.strategy = r'.parts env' s v.strategy := by
  have hfree : ∀ code, freeFor (exec (update env r) s).2 v.strategy r'.version code =
      freeFor s v.strategy r'.version code := by
    intro code
    rw [exec_update_of_mem h hv hid]
    cases r.parts env s v.strategy with
    | error e => rfl
    | ok p =>
      cases code with
      | none => rfl
      | some code =>
        simp only [freeFor]
        rw [Store.ensureCodeAvailable_eq, Store.ensureCodeAvailable_eq, hsame, Store.codeTaken_revise]
  simp only [Revision.parts, hfree]

/-- The store after two revisions of a version, but for the moment of the last one. -/
theorem unstamped_update_update {env' : Surroundings} (h : s.WellFormed) (hv : v ∈ s.versions)
    (hid : v.id = r.version) (hsame : r.version = r'.version) :
    (exec (update env' r') (exec (update env r) s).2).2.unstamped r.version =
      (s.unstamped r.version).revise r.version
        (leaves (leaves v.content (r.parts env s v.strategy)) (r'.parts env' s v.strategy)) 0 := by
  obtain ⟨w, hw, hwid, hws, hwc⟩ := mem_after_update env h hv hid
  rw [hsame, unstamped_update (wellFormed_update h env r) hw (hwid.trans (hid.trans hsame)), hws, hwc,
    parts_after_update h hv hid hsame, ← hsame, unstamped_update h hv hid, Store.revise_revise]

theorem failure?_update_update {env' : Surroundings} (h : s.WellFormed) (hv : v ∈ s.versions)
    (hid : v.id = r.version) (hsame : r.version = r'.version) :
    failure? (update env' r') (exec (update env r) s).2 = failure? (update env' r') s := by
  obtain ⟨w, hw, hwid, hws, -⟩ := mem_after_update env h hv hid
  rw [failure?_update (wellFormed_update h env r) hw (hwid.trans (hid.trans hsame)), hws,
    parts_after_update h hv hid hsame, failure?_update h hv (hid.trans hsame)]

/-! ## Either order -/

/-- In every store that a service comes to, a revision that succeeds changes its own version alone, and of that only
    the moment and the parts it gives; and of two revisions of one version which give no part both, each comes to the
    same whichever goes first, and so does the version but for the moment. -/
theorem revisions_are_tight_and_commute (execute : String → Except Rejection Schema) (calls : List Arrival) :
    let s := serve execute {} calls
    let request (m : Instant × Date) (r : Revision) : Request Version := update ⟨execute, m.1, m.2⟩ r
    (∀ m r v s', exec (request m r) s = (.ok v, s') →
      ∃ old ∈ s.versions, old.id = r.version ∧ Revised execute r m.1 old v ∧
        s' = { s with versionRows := s.versionRows.map fun w => if w.id = r.version then v else w }) ∧
    ∀ r r' : Revision, r.version = r'.version → r.Disjoint r' → ∀ first second first' second' : Instant × Date,
      let one := (exec (request first r) s).2
      let other := (exec (request first' r') s).2
      failure? (request second' r) other = failure? (request first r) s ∧
        failure? (request second r') one = failure? (request first' r') s ∧
        (exec (request second r') one).2.unstamped r.version =
          (exec (request second' r) other).2.unstamped r.version := by
  intro s request
  have h : s.WellFormed := wellFormed_serve execute calls
  refine ⟨fun m r v s' hexec => revised_of_update h hexec, ?_⟩
  intro r r' hsame hdisjoint first second first' second' one other
  by_cases hthere : ∃ v ∈ s.versions, v.id = r.version
  · obtain ⟨v, hv, hid⟩ := hthere
    have hid' : v.id = r'.version := hid.trans hsame
    refine ⟨?_, ?_, ?_⟩
    · exact (failure?_update_update h hv hid' hsame.symm).trans (failure?_at h hv hid _ _)
    · exact (failure?_update_update h hv hid hsame).trans (failure?_at h hv hid' _ _)
    · calc (exec (request second r') one).2.unstamped r.version
          = (s.unstamped r.version).revise r.version
              (leaves (leaves v.content (r.parts ⟨execute, first.1, first.2⟩ s v.strategy))
                (r'.parts ⟨execute, second.1, second.2⟩ s v.strategy)) 0 :=
            unstamped_update_update h hv hid hsame
        _ = (s.unstamped r'.version).revise r'.version
              (leaves (leaves v.content (r'.parts ⟨execute, first'.1, first'.2⟩ s v.strategy))
                (r.parts ⟨execute, second'.1, second'.2⟩ s v.strategy)) 0 := by
            rw [← hsame]
            exact congrArg (Store.revise _ _ · 0) (leaves_comm hdisjoint v.content)
        _ = (exec (request second' r) other).2.unstamped r.version := by
            rw [hsame]
            exact (unstamped_update_update h hv hid' hsame.symm).symm
  · have hthere' : ¬∃ v ∈ s.versions, v.id = r'.version := hsame ▸ hthere
    have hone : one = s := congrArg Prod.snd (exec_update_of_missing h hthere)
    have hother : other = s := congrArg Prod.snd (exec_update_of_missing h hthere')
    rw [hone, hother]
    refine ⟨?_, ?_, ?_⟩ <;>
      simp only [request, failure?, exec_update_of_missing h hthere, exec_update_of_missing h hthere']

/-- A code for the first version, with blanks around it. -/
def newCode : Revision := ⟨1, none, some " b ", none⟩

/-- Another script for the first version, with a remark. -/
def newScript : Revision := ⟨1, some "factor.boolean([[up]]) return { run = print }", none, some "again"⟩

def afterwards : Surroundings := ⟨twoScripts, 4, ⟨2025, 3, 3⟩⟩

/-- The first version gets its code and its script in either order, and keeps all else. -/
theorem new_code_and_script_for_trend :
    let s := serve twoScripts {} trend
    let renamed := exec (update afterTrend newCode) s
    let rewritten := exec (update afterTrend newScript) s
    (∃ v, renamed.1 = .ok v ∧ ∃ old ∈ s.versions, Revised twoScripts newCode 3 old v) ∧
      failure? (update afterwards newScript) renamed.2 = none ∧
      failure? (update afterwards newCode) rewritten.2 = none ∧
      (exec (update afterwards newScript) renamed.2).2.unstamped 1 =
        (exec (update afterwards newCode) rewritten.2).2.unstamped 1 := by
  intro s renamed rewritten
  obtain ⟨hframe, hcommute⟩ := revisions_are_tight_and_commute twoScripts trend
  have hcode : failure? (update afterTrend newCode) s = none := by decide +kernel
  have hscript : failure? (update afterTrend newScript) s = none := by decide +kernel
  obtain ⟨hone, hother, hstores⟩ := hcommute newCode newScript rfl ⟨.inr rfl, .inl rfl, .inl rfl⟩
    (3, ⟨2025, 3, 2⟩) (4, ⟨2025, 3, 3⟩) (3, ⟨2025, 3, 2⟩) (4, ⟨2025, 3, 3⟩)
  refine ⟨?_, hother.trans hscript, hone.trans hcode, hstores⟩
  obtain ⟨v, hexec⟩ := exec_of_no_failure hcode
  obtain ⟨old, hold, -, hrevised, -⟩ := hframe (3, ⟨2025, 3, 2⟩) newCode v _ hexec
  exact ⟨v, congrArg Prod.fst hexec, old, hold, hrevised⟩

end Service
end StrategyBench
