/-
StrategyBench.Proofs.Lua.Unwinding — an error on its way out of everything that waits.

Nothing that waits holds an error back: it only leaves by way of variables that are to be closed, and
then it is kept in a `failing` entry of the stack until they are (`Carries`). The one thing that can
take its place is another error of what closes such a variable (`Undisturbed`).
-/

import StrategyBench.Proofs.Lua.Steps

namespace StrategyBench.Lua.Machine

variable {ε : Type} {m : Machine ε} {fault : Fault}

/-- An error is on its way out: it is what has just ended, or variables are being closed because of it. -/
inductive Carries (fault : Fault) (m : Machine ε) : Prop
  | failed (h : m.running = .failed fault)
  | closing (above : List (Waiting ε)) (f : Frame) (below : List (Waiting ε))
    (h : m.waiting = above ++ .failing f fault :: below)

/-- What closes a variable because of an error raises no other error: whatever leaves a handler that
was called because of it is the same error again. -/
def Undisturbed (lib : Library ε) (fault : Fault) (m : Machine ε) : Prop :=
  ∀ n other f below, (m.after lib n).running = .failed other →
    (m.after lib n).waiting = .failing f fault :: below → other = fault

theorem Undisturbed.step {lib : Library ε} (h : Undisturbed lib fault m) :
    Undisturbed lib fault (m.step lib) :=
  fun n => h (n + 1)

/-- What closes a variable because of an error has just raised another one. -/
def isDisturbed (same : Fault → Bool) (m : Machine ε) : Bool :=
  match m.running, m.waiting with
  | .failed other, .failing _ kept :: _ => same kept && !same other
  | _, _ => false

/-- The machine ends within some steps, and nothing takes the place of an error. -/
def endsUndisturbed (lib : Library ε) (same : Fault → Bool) : Nat → Machine ε → Bool
  | 0, m => m.outcome?.isSome
  | n + 1, m => !m.isDisturbed same && endsUndisturbed lib same n (m.step lib)

theorem undisturbed_of_ends {lib : Library ε} {same : Fault → Bool} {n : Nat}
    (hsame : ∀ g, same g = true ↔ g = fault) (h : m.endsUndisturbed lib same n = true) :
    Undisturbed lib fault m := by
  induction n generalizing m with
  | zero =>
    intro k other f below hrunning hwaiting
    rw [after_of_outcome lib h] at hwaiting
    have hnone : m.outcome? = none := by simp [outcome?, hwaiting]
    simp [endsUndisturbed, hnone] at h
  | succ n ih =>
    rw [endsUndisturbed, Bool.and_eq_true] at h
    intro k other f below hrunning hwaiting
    cases k with
    | zero =>
      rw [after] at hrunning hwaiting
      have hkept : same fault = true := (hsame fault).mpr rfl
      exact (hsame other).mp (by simpa [isDisturbed, hrunning, hwaiting, hkept] using h.1)
    | succ k => exact ih h.2 k other f below hrunning hwaiting

/-! ## One step -/

/-- A function that is taken off the machine passes the error on, or keeps it while it closes. -/
theorem carries_unwindFrame (m : Machine ε) (f : Frame) (fault : Fault) :
    Carries fault (m.unwindFrame f fault) := by
  unfold unwindFrame
  split
  · exact .failed rfl
  · exact .closing [] _ _ rfl

/-- Whatever waits passes an error on; a function of the host keeps those of the host as they are. -/
theorem carries_unwind (m : Machine ε) (w : Waiting ε) (hhost : fault.atHost = fault) :
    Carries fault (m.unwind w fault) := by
  cases w with
  | program p next reserved =>
    refine .failed ?_
    simp [unwind, hhost]
  | _ => exact carries_unwindFrame m _ fault

/-- What grows above an error on its way out leaves it there. -/
theorem Carries.of_grown {m' : Machine ε} {P : ε → Prop} {above below : List (Waiting ε)} {f : Frame}
    {effects : List ε} (h : Grown P m' (above ++ .failing f fault :: below) effects) :
    Carries fault m' := by
  obtain ⟨more, hmore, -⟩ := h.waiting
  exact .closing (more ++ above) f below (by simp [hmore])

theorem Carries.step {lib : Library ε} (hhost : fault.atHost = fault)
    (hundisturbed : Undisturbed lib fault m) (h : Carries fault m) : Carries fault (m.step lib) := by
  cases h with
  | failed hrunning =>
    cases hwaiting : m.waiting with
    | nil =>
      rw [step_of_outcome lib (by simp [outcome?, hrunning, hwaiting])]
      exact .failed hrunning
    | cons w rest =>
      rw [step_of_failed lib hrunning hwaiting]
      exact carries_unwind _ w hhost
  | closing above f below hwaiting =>
    by_cases hworking : m.isWorking = true
    · -- what closes the variable goes on, and the error waits below
      have hrunning : m.running.Emits fun _ => True := by
        cases m.running <;> simp [Running.Emits, Program.emits_true]
      have hgrown : Grown (fun _ => True) (m.step lib) m.waiting m.effects :=
        grown_step (fun _ _ => Program.emits_true _) hrunning hworking
      rw [hwaiting] at hgrown
      exact .of_grown hgrown
    · cases above with
      | nil =>
        -- the handler has ended: with results, or with the same error
        rcases (isWorking_eq_false m).mp (by simpa using hworking) with ⟨results, hrunning⟩ | ⟨other, hrunning⟩
        · rw [step_of_done lib hrunning hwaiting]
          exact carries_unwindFrame _ f fault
        · rw [step_of_failed lib hrunning hwaiting, hundisturbed 0 other f below hrunning hwaiting]
          exact carries_unwindFrame _ f fault
      | cons w above =>
        rw [List.cons_append] at hwaiting
        rcases (isWorking_eq_false m).mp (by simpa using hworking) with ⟨results, hrunning⟩ | ⟨other, hrunning⟩
        · rw [step_of_done lib hrunning hwaiting]
          have hwait : w.Emits fun _ => True := by cases w <;> simp [Waiting.Emits, Program.emits_true]
          exact .of_grown (grown_resume _ hwait results)
        · rw [step_of_failed lib hrunning hwaiting]
          exact .of_grown (P := fun _ => True) (grown_unwind _ w other)

/-! ## Where it begins -/

/-- A step finds more memory in use than there may be. -/
def isOutOfMemory (lib : Library ε) (m : Machine ε) : Bool :=
  m.heap.full && m.isWorking && (m.measure lib).heap.overLimit

theorem step_of_enough_memory {lib : Library ε} (h : m.isOutOfMemory lib = false) :
    m.step lib = m.proceed lib ∨ m.step lib = (m.measure lib).proceed lib := by
  unfold step
  split
  · rename_i hfull
    have hunder : (m.measure lib).heap.overLimit = false := by simpa [isOutOfMemory, hfull] using h
    simp [hunder]
  · exact .inl rfl

/-- A function of the host that raises an error of the host ends with it. -/
theorem carries_step_of_fail {lib : Library ε} {f : String} {e : HostError}
    (hrunning : m.running = .program (.native (.host f)) (.fail (.host e)))
    (hmemory : m.isOutOfMemory lib = false) : Carries (.host e) (m.step lib) := by
  have hfails (m : Machine ε) (h : m.running = .program (.native (.host f)) (.fail (.host e))) :
      Carries (.host e) (m.proceed lib) := by
    refine .failed ?_
    simp [proceed, h, advance, raise, stop, Purpose.isHost, Fault.atHost]
  rcases step_of_enough_memory hmemory with h | h <;> rw [h]
  · exact hfails m hrunning
  · exact hfails (m.measure lib) hrunning

/-! ## Runs -/

theorem Carries.after {lib : Library ε} (hhost : fault.atHost = fault)
    (hundisturbed : Undisturbed lib fault m) (h : Carries fault m) (n : Nat) :
    Carries fault (m.after lib n) := by
  induction n generalizing m with
  | zero => exact h
  | succ n ih => exact ih hundisturbed.step (h.step hhost hundisturbed)

/-- When the machine has ended, the error on its way out is the outcome. -/
theorem Carries.outcome? (h : Carries fault m) (hend : m.outcome?.isSome) :
    m.outcome? = some (.raised fault) := by
  unfold Machine.outcome? at hend ⊢
  cases h with
  | failed hrunning =>
    split at hend
    · simp_all
    · simp_all
    · cases hend
  | closing above f below hwaiting => split at hend <;> simp_all

/-- A run that ends after an error was on its way out ends with it. -/
theorem run_outcome_of_carries {lib : Library ε} {n k : Nat} (hhost : fault.atHost = fault)
    (hcarries : Carries fault (m.after lib (k + 1))) (hopen : (m.after lib k).outcome? = none)
    (hundisturbed : Undisturbed lib fault (m.after lib (k + 1)))
    (hend : (m.run lib n).outcome?.isSome) : (m.run lib n).outcome? = some (.raised fault) := by
  obtain ⟨j, hj⟩ := run_eq_after_of_outcome hend hopen
  cases j with
  | zero =>
    rw [hj, after] at hend
    simp [hopen] at hend
  | succ j =>
    have hsame : m.run lib n = (m.after lib (k + 1)).after lib j := by
      rw [hj, after_succ lib k, after]
    rw [hsame] at hend ⊢
    exact (hcarries.after hhost hundisturbed j).outcome? hend

end StrategyBench.Lua.Machine
