/-
StrategyBench.Proofs.Lua.Entering — where built-in functions begin to run.

A step of a machine starts at most one built-in function, and all else that it does is what it would do if built-in
functions did nothing at all (`enters_step`). So the stack of what waits and the effects can be told for a step in
which nothing is running that emits, whatever the functions emit that are called (`grown_of_silent`,
`grown_of_called`).
-/

import StrategyBench.Proofs.Lua.Runs

namespace StrategyBench.Lua

variable {ε : Type}

/-- A library in which built-in functions do nothing. -/
def Library.muted (lib : Library ε) : Library ε := { lib with run := fun _ _ => .done [] }

namespace Machine

open Program (noEffect)

/-- The second machine is the first one, but for a built-in function that is about to run on it. -/
inductive Enters (lib : Library ε) (m : Machine ε) : Machine ε → Prop
  | same : Enters lib m m
  | entered (g : Native) (args : List Value) : Enters lib m { m with running := .program (.native g) (lib.run g args) }

variable (lib : Library ε) (m : Machine ε)

theorem enters_callValue (f : Value) (args : List Value) :
    Enters lib (callValue lib.muted m f args) (callValue lib m f args) := by
  have hentered (g : Native) (args : List Value) :
      Enters lib (m.enterNative lib.muted g args) (m.enterNative lib g args) :=
    .entered g args
  unfold callValue
  cases f with
  | closure id => exact .same
  | native g => exact hentered g args
  | _ =>
    dsimp only
    split
    · exact .same
    · exact hentered _ _
    · exact .same

theorem enters_tailCall (f : Frame) (g : Value) (args : List Value) :
    Enters lib (tailCall lib.muted m f g args) (tailCall lib m f g args) := by
  unfold tailCall
  split
  · exact .same
  · exact enters_callValue lib _ _ _
  · exact enters_callValue lib _ _ _

theorem enters_callFrom (p : Purpose) (next : List Value → Program ε (List Value)) (f : Value) (args : List Value) :
    Enters lib (callFrom lib.muted m p next f args) (callFrom lib m p next f args) := by
  unfold callFrom
  dsimp only
  split
  · exact .same
  · exact enters_callValue lib _ _ _

theorem enters_advance (p : Purpose) (rest : Program ε (List Value)) :
    Enters lib (advance lib.muted m p rest) (advance lib m p rest) := by
  cases rest with
  | call f args next => exact enters_callFrom lib m p next f args
  | heap op next => cases op <;> exact .same
  | _ => exact .same

theorem enters_execute (f : Frame) : Enters lib (execute lib.muted m f) (execute lib m f) := by
  unfold execute
  extract_lets i f
  clear_value i f
  cases i with
  | call base arguments results => exact enters_callValue lib _ _ _
  | tailCall base arguments => exact enters_tailCall lib m f _ _
  | _ => exact .same

theorem enters_proceed : Enters lib (m.proceed lib.muted) (m.proceed lib) := by
  unfold proceed
  split
  · exact enters_execute lib _ _
  · exact enters_advance lib _ _ _
  · exact .same
  · exact .same

theorem enters_step : Enters lib (m.step lib.muted) (m.step lib) := by
  have hmeasure : m.measure lib.muted = m.measure lib := rfl
  unfold step
  rw [hmeasure]
  split
  · dsimp only
    split
    · exact .same
    · exact enters_proceed lib _
  · exact enters_proceed lib m

/-! ## Silence -/

variable {m}

theorem Grown.effects_of_silent {waiting : List (Waiting ε)} {effects : List ε}
    (hm : Grown noEffect m waiting effects) : m.effects = effects := by
  obtain ⟨new, hnew, hnone⟩ := hm.effects
  obtain rfl := List.eq_nil_iff_forall_not_mem.mpr hnone
  exact hnew

theorem emits_muted (P : ε → Prop) (g : Native) (args : List Value) : (lib.muted.run g args).Emits P := trivial

/-- Where nothing is running that emits, only a built-in function that the step starts may emit. -/
theorem grown_of_silent (hrunning : m.running.Emits noEffect) (hworking : m.isWorking = true) :
    ∃ m', Grown noEffect m' m.waiting m.effects ∧ Enters lib m' (m.step lib) :=
  ⟨_, grown_step (emits_muted lib _) hrunning hworking, enters_step lib m⟩

/-- A program that calls a function waits, and only a built-in function that is called may emit. -/
theorem grown_of_called (m : Machine ε) (p : Purpose) (next : List Value → Program ε (List Value)) (f : Value)
    (args : List Value) :
    ∃ m', Grown noEffect m' (.program p next m.heap.reserved :: m.waiting) m.effects ∧
      Enters lib m' (callFrom lib m p next f args) :=
  ⟨_, grown_called (emits_muted lib _) m p next f args, enters_callFrom lib m p next f args⟩

end Machine
end StrategyBench.Lua
