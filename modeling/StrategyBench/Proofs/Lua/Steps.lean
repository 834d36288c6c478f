/-
StrategyBench.Proofs.Lua.Steps — what a step does to the stack of what waits and to what was emitted.

A step of what runs puts functions and programs on the stack and takes none off it, and it emits at
most what the running program emits (`grown_execute`, `grown_advance`). Only where something has
ended, with results or with an error, the topmost of what waits is taken off, and what becomes of it
grows from what is left (`grown_resume`, `grown_unwind`). So a condition on effects that all built-in
functions keep is kept by every run (`Sound.run`).
-/

import StrategyBench.Proofs.Lua.Programs
import StrategyBench.Lua.Machine

namespace StrategyBench.Lua

variable {ε : Type} {P : ε → Prop}

/-! ## Machines that have grown -/

/-- What a program on the machine will emit satisfies `P`. -/
def Running.Emits (P : ε → Prop) : Running ε → Prop
  | .program _ rest => rest.Emits P
  | _ => True

def Waiting.Emits (P : ε → Prop) : Waiting ε → Prop
  | .program _ next _ => ∀ vs, (next vs).Emits P
  | _ => True

namespace Machine

/-- What waits is `waiting` below what has been added, what was emitted is `effects` before what has
been added, and all that is new keeps to `P`. -/
structure Grown (P : ε → Prop) (m : Machine ε) (waiting : List (Waiting ε)) (effects : List ε) : Prop where
  running : m.running.Emits P
  waiting : ∃ above, m.waiting = above ++ waiting ∧ ∀ w ∈ above, w.Emits P
  effects : ∃ new, m.effects = new ++ effects ∧ ∀ e ∈ new, P e

variable {waiting : List (Waiting ε)} {effects : List ε} {m : Machine ε}

theorem grown_self (h : m.running.Emits P) : Grown P m m.waiting m.effects where
  running := h
  waiting := ⟨[], rfl, by simp⟩
  effects := ⟨[], rfl, by simp⟩

theorem Grown.pushed {w : Waiting ε} (h : Grown P m (w :: waiting) effects) (hw : w.Emits P) :
    Grown P m waiting effects where
  running := h.running
  waiting := by
    obtain ⟨above, habove, hall⟩ := h.waiting
    refine ⟨above ++ [w], by simp [habove], fun u hu => ?_⟩
    rcases List.mem_append.mp hu with hu | hu
    · exact hall u hu
    · obtain rfl := List.mem_singleton.mp hu
      exact hw
  effects := h.effects

theorem Grown.emitted {e : ε} (h : Grown P m waiting (e :: effects)) (he : P e) :
    Grown P m waiting effects where
  running := h.running
  waiting := h.waiting
  effects := by
    obtain ⟨new, hnew, hall⟩ := h.effects
    refine ⟨new ++ [e], by simp [hnew], fun d hd => ?_⟩
    rcases List.mem_append.mp hd with hd | hd
    · exact hall d hd
    · obtain rfl := List.mem_singleton.mp hd
      exact he

/-! ## Errors -/

theorem grown_stop (m : Machine ε) (fault : Fault) : Grown P (m.stop fault) m.waiting m.effects := by
  unfold stop
  split <;> exact grown_self trivial

theorem grown_stopText (m : Machine ε) (s : ByteArray) : Grown P (m.stopText s) m.waiting m.effects :=
  grown_stop m _

/-- An error ends what runs, or is put into words first. -/
theorem grown_raise (m : Machine ε) (r : Raise) : Grown P (m.raise r) m.waiting m.effects := by
  cases r with
  | value v level =>
    cases v with
    | str s => exact grown_stopText m _
    | failure e => exact grown_stop m _
    | _ => exact grown_self (Program.Emits.bind (Operation.emits_display _) fun _ => trivial)
  | host e => exact grown_stop m _
  | memory => exact grown_stop m _
  | _ => exact grown_stopText m _

theorem grown_goOn (m : Machine ε) (f : Frame) : Grown P (m.goOn f) m.waiting m.effects :=
  grown_self trivial

theorem grown_raiseIn (m : Machine ε) (f : Frame) (r : Raise) :
    Grown P (m.raiseIn f r) m.waiting m.effects :=
  (grown_raise (m.suspend f .discard) r).pushed trivial

theorem grown_operate (m : Machine ε) (f : Frame) (r : Resume) {p : Program ε (List Value)}
    (hp : p.Emits P) : Grown P (m.operate f r p) m.waiting m.effects :=
  Grown.pushed (w := .script f r) (grown_self hp) trivial

/-! ## Calls -/

theorem grown_enter (m : Machine ε) (c : Closure) (args : List Value) :
    Grown P (m.enter c args) m.waiting m.effects := by
  unfold enter
  dsimp only
  split
  · exact grown_stopText m _
  · split <;> exact grown_self trivial

theorem grown_callValue {lib : Library ε} (hlib : ∀ g args, (lib.run g args).Emits P) (m : Machine ε)
    (f : Value) (args : List Value) : Grown P (callValue lib m f args) m.waiting m.effects := by
  unfold callValue
  split
  · exact grown_enter m _ _
  · exact grown_self (hlib _ _)
  · split
    · exact grown_enter m _ _
    · exact grown_self (hlib _ _)
    · exact grown_stopText m _

theorem grown_tailCall {lib : Library ε} (hlib : ∀ g args, (lib.run g args).Emits P) (m : Machine ε)
    (f : Frame) (g : Value) (args : List Value) :
    Grown P (tailCall lib m f g args) m.waiting m.effects := by
  unfold tailCall
  split
  · exact grown_enter { m with slots := m.slots - f.size, running := .done [] } _ _
  · exact (grown_callValue hlib (m.suspend f .answer) _ _).pushed trivial
  · exact (grown_callValue hlib (m.suspend f .answer) _ _).pushed trivial

theorem grown_answer (m : Machine ε) (f : Frame) (results : List Value) :
    Grown P (m.answer f results) m.waiting m.effects := by
  unfold answer
  split
  · exact grown_self trivial
  · rename_i v rest _
    exact Grown.pushed (w := .leaving { f with closing := rest } results)
      (grown_self (emits_closeProgram _ _)) trivial

theorem grown_unwindFrame (m : Machine ε) (f : Frame) (fault : Fault) :
    Grown P (m.unwindFrame f fault) m.waiting m.effects := by
  unfold unwindFrame
  split
  · exact grown_self trivial
  · rename_i v rest _
    exact Grown.pushed (w := .failing { f with closing := rest } fault)
      (grown_self (emits_closeProgram _ _)) trivial

/-! ## What waited -/

theorem grown_resume (m : Machine ε) {w : Waiting ε} (hw : w.Emits P) (results : List Value) :
    Grown P (m.resume w results) m.waiting m.effects := by
  cases w with
  | script f r =>
    cases r with
    | _ => exact grown_self trivial
  | program p next reserved => exact grown_self (hw results)
  | leaving f answers => exact grown_answer m f answers
  | failing f fault => exact grown_unwindFrame m f fault

theorem grown_unwind (m : Machine ε) (w : Waiting ε) (fault : Fault) :
    Grown P (m.unwind w fault) m.waiting m.effects := by
  cases w with
  | program p next reserved => exact grown_self trivial
  | _ => exact grown_unwindFrame m _ _

/-! ## Programs -/

/-- What a program calls grows above the program, which waits. -/
theorem grown_called {lib : Library ε} (hlib : ∀ g args, (lib.run g args).Emits P) (m : Machine ε)
    (p : Purpose) (next : List Value → Program ε (List Value)) (f : Value) (args : List Value) :
    Grown P (callFrom lib m p next f args) (.program p next m.heap.reserved :: m.waiting) m.effects := by
  unfold callFrom
  dsimp only
  split
  · exact grown_stopText _ _
  · exact grown_callValue hlib _ _ _

theorem grown_callFrom {lib : Library ε} (hlib : ∀ g args, (lib.run g args).Emits P) (m : Machine ε)
    (p : Purpose) {next : List Value → Program ε (List Value)} (hnext : ∀ vs, (next vs).Emits P)
    (f : Value) (args : List Value) : Grown P (callFrom lib m p next f args) m.waiting m.effects :=
  (grown_called hlib m p next f args).pushed hnext

theorem grown_finish (m : Machine ε) (p : Purpose) (results : List Value) :
    Grown P (m.finish p results) m.waiting m.effects := by
  unfold finish
  extract_lets heap released
  have hkeeps : released.waiting = m.waiting ∧ released.effects = m.effects := by
    unfold released
    split <;> exact ⟨rfl, rfl⟩
  rw [← hkeeps.1, ← hkeeps.2]
  clear_value released
  split
  · exact grown_stopText released _
  · exact grown_self trivial

theorem reserveFor_keeps {lib : Library ε} {bytes : Nat} {m' : Machine ε}
    (h : reserveFor lib m bytes = some m') : m'.waiting = m.waiting ∧ m'.effects = m.effects := by
  unfold reserveFor at h
  by_cases hfull : m.heap.threshold < m.heap.used + bytes
  all_goals
    simp only [hfull, if_true, if_false] at h
    split at h
    · cases h
    · obtain rfl := Option.some.inj h
      exact ⟨rfl, rfl⟩

/-- A step of a program emits at most one effect, which is one of the program's. -/
theorem grown_advance {lib : Library ε} (hlib : ∀ g args, (lib.run g args).Emits P) (m : Machine ε)
    (p : Purpose) {rest : Program ε (List Value)} (hrest : rest.Emits P) :
    Grown P (advance lib m p rest) m.waiting m.effects := by
  cases rest with
  | done results => exact grown_finish m p results
  | fail r => exact grown_raise { m with running := .program p (.done []) } r
  | call f args next => exact grown_callFrom hlib m p hrest f args
  | emit e next => exact Grown.emitted (e := e) (grown_self (hrest.2 ())) hrest.1
  | heap op next =>
    cases op with
    | reserve bytes =>
      unfold advance
      dsimp only
      split
      · rename_i m' h
        obtain ⟨hwaiting, heffects⟩ := reserveFor_keeps h
        rw [← hwaiting, ← heffects]
        exact grown_self (m := { m' with running := .program p (next .nil) }) (hrest _)
      · exact grown_raise { m with running := .program p (.done []) } _
    | _ =>
      unfold advance
      dsimp only
      split
      · exact grown_raise { m with running := .program p (.done []) } _
      · exact grown_self (hrest _)

/-! ## Instructions -/

theorem grown_one (m : Machine ε) (f : Frame) (r : Resume) {p : Program ε Value} (hp : p.Emits P) :
    Grown P (m.operate f r (one p)) m.waiting m.effects :=
  grown_operate m f r (Program.Emits.bind hp fun _ => trivial)

theorem grown_truth (m : Machine ε) (f : Frame) (r : Resume) {p : Program ε Bool} (hp : p.Emits P) :
    Grown P (m.operate f r (truth p)) m.waiting m.effects :=
  grown_operate m f r (Program.Emits.bind hp fun _ => trivial)

theorem grown_nothing (m : Machine ε) (f : Frame) (r : Resume) {p : Program ε Unit} (hp : p.Emits P) :
    Grown P (m.operate f r (nothing p)) m.waiting m.effects :=
  grown_operate m f r (Program.Emits.bind hp fun _ => trivial)

theorem grown_indexInto (m : Machine ε) (f : Frame) (dst : Reg) (o key : Value) :
    Grown P (m.indexInto f dst o key) m.waiting m.effects := by
  unfold indexInto
  split
  · dsimp only
    split
    · exact grown_one m f _ (Operation.emits_index _ _)
    · split
      · exact grown_goOn m _
      · exact grown_self trivial
  · exact grown_one m f _ (Operation.emits_index _ _)

theorem grown_storeAt (m : Machine ε) (f : Frame) (o key value : Value) :
    Grown P (m.storeAt f o key value) m.waiting m.effects := by
  unfold storeAt
  split
  · split
    · exact grown_nothing m f _ (Operation.emits_setIndex _ _ _)
    · split
      · exact grown_raiseIn m f _
      · exact grown_self trivial
  · exact grown_nothing m f _ (Operation.emits_setIndex _ _ _)

theorem grown_startLoop (m : Machine ε) (f : Frame) (base : Reg) (exit : Nat) :
    Grown P (m.startLoop f base exit) m.waiting m.effects := by
  unfold startLoop
  split
  · exact grown_raiseIn m f _
  · exact grown_raiseIn m f _
  all_goals exact grown_goOn m _

theorem grown_markClosing (m : Machine ε) (f : Frame) (r : Reg) (v : Value) (name : ByteArray) :
    Grown P (m.markClosing f r v name) m.waiting m.effects := by
  unfold markClosing
  split
  · exact grown_goOn m _
  · split
    · exact grown_raiseIn m f _
    · exact grown_goOn m _

theorem grown_closeFrom (m : Machine ε) (f : Frame) (r : Reg) :
    Grown P (m.closeFrom f r) m.waiting m.effects := by
  unfold closeFrom
  split
  · split
    · exact grown_operate m _ _ (emits_closeProgram _ _)
    · exact grown_goOn m _
  · exact grown_goOn m _

theorem grown_arithInto (m : Machine ε) (f : Frame) (op : ArithOp) (dst : Reg) (a b : Value) :
    Grown P (m.arithInto f op dst a b) m.waiting m.effects := by
  unfold arithInto
  split
  · exact grown_goOn m _
  · exact grown_one m f _ (Operation.emits_arith _ _ _)

theorem grown_compareAt (m : Machine ε) (f : Frame) (c : Comparison) (a b : Value) (when_ : Bool)
    (target : Nat) : Grown P (m.compareAt f c a b when_ target) m.waiting m.effects := by
  unfold compareAt
  cases c with
  | eq =>
    dsimp only
    split
    · split
      · exact grown_goOn m _
      · exact grown_truth m f _ (Operation.emits_equals _ _)
    · exact grown_goOn m _
  | lt =>
    dsimp only
    split
    · exact grown_goOn m _
    · exact grown_truth m f _ (Operation.emits_less _ _)
  | le =>
    dsimp only
    split
    · exact grown_goOn m _
    · exact grown_truth m f _ (Operation.emits_lessEq _ _)

theorem grown_lengthInto (m : Machine ε) (f : Frame) (dst : Reg) (v : Value) :
    Grown P (m.lengthInto f dst v) m.waiting m.effects := by
  unfold lengthInto
  split
  · exact grown_goOn m _
  · split
    · exact grown_one m f _ (Operation.emits_length _)
    · exact grown_self trivial
  · exact grown_one m f _ (Operation.emits_length _)

theorem grown_execute {lib : Library ε} (hlib : ∀ g args, (lib.run g args).Emits P) (m : Machine ε)
    (f : Frame) : Grown P (execute lib m f) m.waiting m.effects := by
  unfold execute
  extract_lets i f
  clear_value i f
  cases i with
  | setCell r src =>
    dsimp only
    split
    · exact grown_self trivial
    · exact grown_goOn m f
  | setList t first count start =>
    dsimp only
    split
    · exact grown_self trivial
    · exact grown_goOn m f
  | index dst o k => exact grown_indexInto m f _ _ _
  | setIndex o k v => exact grown_storeAt m f _ _ _
  | method dst o name => exact grown_indexInto m _ _ _ _
  | arith op dst a b => exact grown_arithInto m f _ _ _ _
  | length dst a => exact grown_lengthInto m f _ _
  | concat dst first count => exact grown_one m f _ (Operation.emits_concat _)
  | compare c a b when_ target => exact grown_compareAt m f _ _ _ _ _
  | call base arguments results => exact (grown_callValue hlib (m.suspend f _) _ _).pushed trivial
  | tailCall base arguments => exact grown_tailCall hlib m f _ _
  | ret first count => exact grown_answer m f _
  | forPrepare base exit => exact grown_startLoop m f _ _
  | iterate base results => exact grown_operate m f _ (Program.emits_invoke _ _)
  | markClose r value name => exact grown_markClosing m f _ _ _
  | close r => exact grown_closeFrom m f _
  -- the others go on with the next instruction
  | _ => exact grown_self trivial

/-! ## Steps of the machine -/

theorem grown_outOfMemory (m : Machine ε) : Grown P m.outOfMemory m.waiting m.effects := by
  unfold outOfMemory
  split
  · exact grown_raiseIn m _ _
  · exact grown_raise m _

theorem isWorking_eq_false (m : Machine ε) : m.isWorking = false ↔
    (∃ results, m.running = .done results) ∨ ∃ fault, m.running = .failed fault := by
  unfold isWorking
  cases m.running <;> simp

/-- What works is left on the stack, and what has ended leaves it, in a step of its own. -/
theorem step_of_ended (lib : Library ε) (h : m.isWorking = false) : m.step lib = m.proceed lib := by
  simp [step, h]

theorem step_of_done (lib : Library ε) {results : List Value} {w : Waiting ε} {rest : List (Waiting ε)}
    (hrunning : m.running = .done results) (hwaiting : m.waiting = w :: rest) :
    m.step lib = resume { m with waiting := rest } w results := by
  rw [step_of_ended lib ((isWorking_eq_false m).mpr (.inl ⟨_, hrunning⟩)), proceed]
  simp only [hrunning, hwaiting]

theorem step_of_failed (lib : Library ε) {fault : Fault} {w : Waiting ε} {rest : List (Waiting ε)}
    (hrunning : m.running = .failed fault) (hwaiting : m.waiting = w :: rest) :
    m.step lib = unwind { m with waiting := rest } w fault := by
  rw [step_of_ended lib ((isWorking_eq_false m).mpr (.inr ⟨_, hrunning⟩)), proceed]
  simp only [hrunning, hwaiting]

/-- A machine that has ended stays as it is. -/
theorem step_of_outcome (lib : Library ε) (h : m.outcome?.isSome) : m.step lib = m := by
  unfold outcome? at h
  split at h
  · rename_i results hrunning hwaiting
    rw [step_of_ended lib ((isWorking_eq_false m).mpr (.inl ⟨_, hrunning⟩)), proceed]
    simp only [hrunning, hwaiting]
  · rename_i fault hrunning hwaiting
    rw [step_of_ended lib ((isWorking_eq_false m).mpr (.inr ⟨_, hrunning⟩)), proceed]
    simp only [hrunning, hwaiting]
  · cases h

theorem grown_proceed {lib : Library ε} (hlib : ∀ g args, (lib.run g args).Emits P)
    (hrunning : m.running.Emits P) (hworking : m.isWorking = true) :
    Grown P (m.proceed lib) m.waiting m.effects := by
  unfold proceed
  split
  · exact grown_execute hlib { m with running := .done [] } _
  · rename_i p rest hrest
    rw [hrest] at hrunning
    exact grown_advance hlib { m with running := .done [] } p hrunning
  · rename_i results hdone
    simp [isWorking, hdone] at hworking
  · rename_i fault hfailed
    simp [isWorking, hfailed] at hworking

theorem grown_step {lib : Library ε} (hlib : ∀ g args, (lib.run g args).Emits P)
    (hrunning : m.running.Emits P) (hworking : m.isWorking = true) :
    Grown P (m.step lib) m.waiting m.effects := by
  unfold step
  split
  · -- measuring what is in use changes the heap only
    dsimp only
    split
    · exact grown_outOfMemory (m.measure lib)
    · exact grown_proceed (m := m.measure lib) hlib hrunning hworking
  · exact grown_proceed hlib hrunning hworking

/-! ## Runs -/

/-- All that runs, waits and was emitted keeps to `P`. -/
structure Sound (P : ε → Prop) (m : Machine ε) : Prop where
  running : m.running.Emits P
  waiting : ∀ w ∈ m.waiting, w.Emits P
  effects : ∀ e ∈ m.effects, P e

theorem Grown.sound (h : Grown P m waiting effects) (hwaiting : ∀ w ∈ waiting, w.Emits P)
    (heffects : ∀ e ∈ effects, P e) : Sound P m where
  running := h.running
  waiting := by
    obtain ⟨above, habove, hall⟩ := h.waiting
    intro w hw
    rw [habove] at hw
    exact (List.mem_append.mp hw).elim (hall w) (hwaiting w)
  effects := by
    obtain ⟨new, hnew, hall⟩ := h.effects
    intro e he
    rw [hnew] at he
    exact (List.mem_append.mp he).elim (hall e) (heffects e)

theorem Sound.step {lib : Library ε} (hlib : ∀ g args, (lib.run g args).Emits P) (h : Sound P m) :
    Sound P (m.step lib) := by
  by_cases hworking : m.isWorking = true
  · exact (grown_step hlib h.running hworking).sound h.waiting h.effects
  · have hended := (isWorking_eq_false m).mp (by simpa using hworking)
    cases hwaiting : m.waiting with
    | nil =>
      rw [step_of_outcome lib (by obtain ⟨_, hr⟩ | ⟨_, hr⟩ := hended <;> simp [outcome?, hr, hwaiting])]
      exact h
    | cons w rest =>
      have hall := h.waiting
      rw [hwaiting] at hall
      have hrest : ∀ u ∈ rest, u.Emits P := fun u hu => hall u (List.mem_cons_of_mem _ hu)
      rcases hended with ⟨results, hrunning⟩ | ⟨fault, hrunning⟩
      · rw [step_of_done lib hrunning hwaiting]
        exact (grown_resume { m with waiting := rest } (hall w List.mem_cons_self) results).sound hrest
          h.effects
      · rw [step_of_failed lib hrunning hwaiting]
        exact (grown_unwind { m with waiting := rest } w fault).sound hrest h.effects

theorem Sound.run {lib : Library ε} (hlib : ∀ g args, (lib.run g args).Emits P) (h : Sound P m)
    (n : Nat) : Sound P (m.run lib n) := by
  induction n generalizing m with
  | zero => exact h
  | succ n ih =>
    unfold Machine.run
    split
    · exact h
    · exact ih (h.step hlib)

/-- A machine that has only just started keeps to everything. -/
theorem sound_start (heap : Heap) (chunk : Chunk) (environment : Nat) :
    Sound P (start heap chunk environment : Machine ε) :=
  (grown_enter _ _ _).sound (by simp) (by simp)

/-! ## States of a run -/

/-- The machine after so many steps, whatever they cost. -/
def after (lib : Library ε) : Nat → Machine ε → Machine ε
  | 0, m => m
  | n + 1, m => after lib n (m.step lib)

theorem after_add (lib : Library ε) (j k : Nat) (m : Machine ε) :
    m.after lib (j + k) = (m.after lib j).after lib k := by
  induction j generalizing m with
  | zero => simp [after]
  | succ j ih => rw [Nat.succ_add]; exact ih (m.step lib)

theorem after_succ (lib : Library ε) (n : Nat) (m : Machine ε) :
    m.after lib (n + 1) = (m.after lib n).step lib := after_add lib n 1 m

theorem after_of_outcome (lib : Library ε) (h : m.outcome?.isSome) (n : Nat) : m.after lib n = m := by
  induction n with
  | zero => rfl
  | succ n ih => rw [after, step_of_outcome lib h, ih]

/-- A run ends in one of the states that the machine goes through. -/
theorem run_eq_after (lib : Library ε) (n : Nat) (m : Machine ε) : ∃ k, m.run lib n = m.after lib k := by
  induction n generalizing m with
  | zero => exact ⟨0, rfl⟩
  | succ n ih =>
    unfold Machine.run
    split
    · exact ⟨0, rfl⟩
    · obtain ⟨k, hk⟩ := ih (m.step lib)
      exact ⟨k + 1, hk⟩

/-- A run that has ended goes through every state in which the machine has not. -/
theorem run_eq_after_of_outcome {lib : Library ε} {n k : Nat} (hend : (m.run lib n).outcome?.isSome)
    (hopen : (m.after lib k).outcome? = none) : ∃ j, m.run lib n = (m.after lib k).after lib j := by
  obtain ⟨l, hl⟩ := run_eq_after lib n m
  rw [hl] at hend ⊢
  rcases Nat.le_total k l with hkl | hlk
  · exact ⟨l - k, by rw [← after_add, Nat.add_sub_cancel' hkl]⟩
  · obtain ⟨d, rfl⟩ := Nat.exists_eq_add_of_le hlk
    rw [after_add, after_of_outcome lib hend] at hopen
    simp [hopen] at hend

end Machine
end StrategyBench.Lua
