/-
StrategyBench.Proofs.Service.Provenance — every stored schema is what the sandbox makes of the source
beside it.

The store takes contents as they are given: whatever a store holds is in one of the writes that led
to it (`run_contents`). What a call writes is from the sandbox whenever what is stored is
(`writes_fromSandbox`), because a revision replaces the source and both lists of fields together or
keeps all three. So no sequence of calls, with failures among them, leaves a schema that belongs to
another source, or a source that the sandbox rejects (`stored_schema_of_source`).
-/

import StrategyBench.Proofs.Service.Runs

namespace StrategyBench

/-! ## Contents in the store -/

namespace Store

/-- The content that a write puts into the store. -/
def Write.content? : Write → Option Content
  | .saveVersion _ content | .updateVersion _ content => some content
  | .createStrategy .. | .setMaster .. => none

/-- A content that is stored after a write was stored before it, or is the one written. -/
theorem Effect.content {s s' : Store} {now : Instant} {w : Write} (he : Effect s now w s') (h : s.WellFormed)
    {v' : Version} (hv' : v' ∈ s'.versions) :
    (∃ v ∈ s.versions, v'.content = v.content) ∨ w.content? = some v'.content := by
  cases he with
  | createStrategy name description => exact .inl ⟨v', hv', rfl⟩
  | saveVersion t content ht hfree =>
    rcases (mem_versions_withVersion h).mp hv' with hv | rfl
    · exact .inl ⟨v', hv, rfl⟩
    · exact .inr rfl
  | updateVersion u content hu hfree =>
    obtain ⟨v, hv, rfl⟩ := mem_versions_revise.mp hv'
    rw [Version.revised_content]
    split
    · exact .inr rfl
    · exact .inl ⟨v, hv, rfl⟩
  | setMaster t u ht hu hown =>
    obtain ⟨v, hv, rfl⟩ := mem_versions_flag.mp hv'
    exact .inl ⟨v, hv, Version.flagged_content ..⟩

theorem apply_contents {P : Content → Prop} {s : Store} (h : s.WellFormed)
    (hs : ∀ v ∈ s.versions, P v.content) {now : Instant} {w : Write}
    (hw : ∀ content, w.content? = some content → P content) :
    ∀ v ∈ (s.apply now w).versions, P v.content := by
  rcases apply_cases h now w with ⟨-, heq⟩ | he
  · rwa [heq]
  · intro v' hv'
    rcases he.content h hv' with ⟨v, hv, hc⟩ | hc
    · rw [hc]
      exact hs v hv
    · exact hw _ hc

/-- What holds of the stored contents and of those written holds of all that are stored after. -/
theorem run_contents {P : Content → Prop} {s : Store} (h : s.WellFormed)
    (hs : ∀ v ∈ s.versions, P v.content) {writes : List (Instant × Write)}
    (hw : ∀ w ∈ writes, ∀ content, w.2.content? = some content → P content) :
    ∀ v ∈ (s.run writes).versions, P v.content := by
  induction writes generalizing s with
  | nil => exact hs
  | cons w ws ih =>
    have hfirst : ∀ v ∈ (s.apply w.1 w.2).versions, P v.content :=
      apply_contents h hs (hw w List.mem_cons_self)
    exact ih (wellFormed_apply h w.1 w.2) hfirst fun w' hw' => hw w' (List.mem_cons_of_mem _ hw')

end Store

namespace Service

variable {env : Surroundings} {s : Store}

/-! ## Contents from the sandbox -/

/-- The fields of a content are what the sandbox makes of its source. -/
def FromSandbox (execute : String → Except Rejection Schema) (c : Content) : Prop :=
  execute c.source = .ok ⟨c.parameters, c.factors⟩

theorem submission_fromSandbox {r : Submission} {c : Content} (h : r.content env s = .ok c) :
    FromSandbox env.execute c := by
  obtain ⟨_, schema, code, -, hschema, -, rfl⟩ := r.content_eq_ok h
  exact hschema

/-- A revision keeps source and schema, or replaces both at once. -/
theorem revision_fromSandbox {r : Revision} {c : Content} (hs : ∀ v ∈ s.versions, FromSandbox env.execute v.content)
    (h : r.content env s = .ok c) : FromSandbox env.execute c := by
  obtain ⟨v, requested, rerun, hv, -, hrerun, -, rfl⟩ := r.content_eq_ok h
  cases hsource : r.source with
  | none =>
    rw [hsource] at hrerun
    cases hrerun
    exact hs v (Rows.mem_values_of_get? hv)
  | some source =>
    rw [hsource] at hrerun
    obtain ⟨schema, hschema, rfl⟩ := map_eq_ok hrerun
    exact mapError_eq_ok hschema

theorem writes_fromSandbox (hs : ∀ v ∈ s.versions, FromSandbox env.execute v.content) {c : Call}
    {w : Store.Write} (hw : w ∈ c.writes env s) {content : Content} (hc : w.content? = some content) :
    FromSandbox env.execute content := by
  cases c with
  | createStrategy name description =>
    simp only [Call.writes] at hw
    split at hw
    · cases hw
    · obtain rfl := List.mem_singleton.mp hw
      cases hc
  | submit r =>
    simp only [Call.writes] at hw
    split at hw
    · cases hw
    · rename_i decided hd
      rcases List.mem_cons.mp hw with rfl | hw
      · cases hc
        exact submission_fromSandbox hd
      · split at hw
        · obtain rfl := List.mem_singleton.mp hw
          cases hc
        · cases hw
  | update r =>
    simp only [Call.writes] at hw
    split at hw
    · cases hw
    · rename_i decided hd
      obtain rfl := List.mem_singleton.mp hw
      cases hc
      exact revision_fromSandbox hs hd
  | setMaster strategy version =>
    obtain rfl := List.mem_singleton.mp hw
    cases hc

theorem after_fromSandbox (h : s.WellFormed) (hs : ∀ v ∈ s.versions, FromSandbox env.execute v.content)
    (c : Call) : ∀ v ∈ (c.after env s).versions, FromSandbox env.execute v.content := by
  rw [after_eq_run h]
  refine Store.run_contents h hs fun w hw content hc => ?_
  obtain ⟨w', hw', rfl⟩ := List.mem_map.mp hw
  exact writes_fromSandbox hs hw' hc

/-- Whatever calls a service has had, the sandbox accepts the source of every stored version, and the
    parameters and factors that are stored with it are what the sandbox makes of that source. -/
theorem stored_schema_of_source (execute : String → Except Rejection Schema) (calls : List Arrival)
    (v : Version) (hv : v ∈ (serve execute {} calls).versions) :
    ∃ schema, execute v.content.source = .ok schema ∧ schema.parameters = v.content.parameters ∧
      schema.factors = v.content.factors := by
  obtain ⟨-, hall⟩ := serve_keeps execute (P := fun s => ∀ v ∈ s.versions, FromSandbox execute v.content)
    (fun s a h hs => after_fromSandbox h hs a.call) Store.wellFormed_empty (by simp [Store.versions]) calls
  exact ⟨_, hall v hv, rfl, rfl⟩

/-- A master that gets another script has the factor of that script. -/
theorem stored_schema_of_revised_trend :
    ∃ v ∈ (serve twoScripts {} (trend ++ [⟨3, ⟨2025, 3, 2⟩,
        .update ⟨1, some "factor.boolean([[up]]) return { run = print }", none, none⟩⟩])).versions,
      v.content.factors.map Field.key = ["up"] ∧ ∃ schema, twoScripts v.content.source = .ok schema ∧
        schema.parameters = v.content.parameters ∧ schema.factors = v.content.factors := by
  generalize hcalls : trend ++ [_] = calls
  have hkeys : (serve twoScripts {} calls).versions.map (·.content.factors.map Field.key) = [["up"]] := by
    subst hcalls
    decide +kernel
  have hup : ["up"] ∈ (serve twoScripts {} calls).versions.map (·.content.factors.map Field.key) := by
    rw [hkeys]
    exact List.mem_singleton_self _
  obtain ⟨v, hv, hkey⟩ := List.mem_map.mp hup
  exact ⟨v, hv, hkey, stored_schema_of_source twoScripts calls v hv⟩

end Service
end StrategyBench
