/-
StrategyBench.Proofs.Store.Moments — what the moment of a write decides.

Rows without their times are `undated`. Whether a write succeeds does not depend on its moment
(`saveVersion_cases`, `updateVersion_cases`, `setMaster_cases`), and the rows it leaves do so only in
their times.
-/

import StrategyBench.Proofs.Store.WellFormed

namespace StrategyBench

/-! ## Rows without their times -/

def Strategy.undated (t : Strategy) : Strategy := { t with createdAt := 0, updatedAt := 0 }

def Version.undated (v : Version) : Version := { v with createdAt := 0, updatedAt := 0 }

section Rows

variable (id strategy master : Int) (content : Content) (now : Instant) (v : Version) (t : Strategy)

theorem Strategy.undated_pointed : (t.pointed strategy master now).undated = t.undated.pointed strategy master 0 := by
  by_cases h : t.id = strategy <;> simp [pointed, undated, h]

theorem Version.undated_revised : (v.revised id content now).undated = v.undated.revised id content 0 := by
  by_cases h : v.id = id <;> simp [revised, undated, h]

theorem Version.undated_flagged : (v.flagged strategy master now).undated = v.undated.flagged strategy master 0 := by
  by_cases hs : v.strategy = strategy
  · by_cases hm : v.isMaster = decide (v.id = master) <;> simp [flagged, undated, hs, hm]
  · simp [flagged, undated, hs]

end Rows

namespace Store

def undated (s : Store) : Store :=
  { s with strategyRows := s.strategyRows.map Strategy.undated, versionRows := s.versionRows.map Version.undated }

variable {s : Store} {now : Instant}

@[simp] theorem strategies_undated : s.undated.strategies = s.strategies.map Strategy.undated := Rows.values_map _

@[simp] theorem versions_undated : s.undated.versions = s.versions.map Version.undated := Rows.values_map _

theorem undated_withVersion (v : Version) : (s.withVersion v).undated = s.undated.withVersion v.undated := by
  simp only [undated, withVersion, Rows.map_insert]
  rfl

theorem undated_revise (id : Int) (content : Content) :
    (s.revise id content now).undated = s.undated.revise id content 0 := by
  simp only [undated, revise, Rows.map_map, Function.comp_def, Version.undated_revised]

theorem undated_flag (strategy master : Int) :
    (s.flag strategy master now).undated = s.undated.flag strategy master 0 := by
  simp only [undated, flag, Rows.map_map, Function.comp_def, Version.undated_flagged, Strategy.undated_pointed]

/-! ## Success and failure -/

theorem saveVersion_cases (s : Store) (strategy : Int) (content : Content) :
    (∃ e, ∀ now, s.saveVersion now strategy content = .error e) ∨
      ∀ now, s.saveVersion now strategy content =
        .ok (s.newVersion now strategy content, s.withVersion (s.newVersion now strategy content)) := by
  by_cases ht : (s.strategy? strategy).isNone = true
  · exact .inl ⟨_, fun now => if_pos ht⟩
  · by_cases hcode : s.codeTaken strategy content.code none = true
    · exact .inl ⟨_, fun now => (if_neg ht).trans (if_pos hcode)⟩
    · exact .inr fun now => (if_neg ht).trans (if_neg hcode)

theorem updateVersion_cases (h : WellFormed s) (id : Int) (content : Content) :
    (∃ e, ∀ now, s.updateVersion now id content = .error e) ∨
      ∃ v ∈ s.versions, v.id = id ∧ ∀ now, s.updateVersion now id content =
        .ok (v.revised id content now, s.revise id content now) := by
  by_cases hex : ∃ v ∈ s.versions, v.id = id
  · obtain ⟨v, hv, rfl⟩ := hex
    by_cases hcode : s.codeTaken v.strategy content.code (some v.id) = true
    · exact .inl ⟨_, fun now => (updateVersion_of_mem h hv content).trans (if_pos hcode)⟩
    · exact .inr ⟨v, hv, rfl, fun now => (updateVersion_of_mem h hv content).trans (if_neg hcode)⟩
  · refine .inl ⟨.versionNotFound id, fun now => ?_⟩
    unfold updateVersion
    rw [(version?_eq_none_iff h).mpr hex]

theorem setMaster_cases (h : WellFormed s) (strategy version : Int) :
    (∃ e, ∀ now, s.setMaster now strategy version = .error e) ∨
      ∀ now, s.setMaster now strategy version = .ok (s.flag strategy version now) := by
  simp only [setMaster_eq_flag h]
  by_cases ht : (s.strategy? strategy).isNone = true
  · exact .inl ⟨_, fun now => if_pos ht⟩
  · by_cases hforeign : (s.version? version).all (·.strategy ≠ strategy) = true
    · exact .inl ⟨_, fun now => (if_neg ht).trans (if_pos hforeign)⟩
    · exact .inr fun now => (if_neg ht).trans (if_neg hforeign)

end Store
end StrategyBench
