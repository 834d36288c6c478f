/-
StrategyBench.Proofs.Sandbox.Session — what has been declared once some calls have come to their end.

Actors. A script calls builders and `define_strategy`, as often as it likes and with any arguments. A call
that is under way takes the steps of its program. Where the program calls a function of the script, the script
runs: it may make further calls, change the heap as it likes, answer anything, or raise an error. So calls are
nested, and an inner one comes to its end before the one that it interrupts. A call may fail at any step of its
own, since memory may run out, but not once it has its answer.

Proved, for every session however calls are nested (`Reach`):
(1) A completed call has declared what its arguments say, if it has answered, and nothing if it has failed
    (`Completed.Right`); the first because the steps of a call are those of its program (`leads`), the second
    because a program declares only as it answers (`last`).
(2) Whenever the script runs, all that has been declared is what the completed calls have declared, in the order in
    which they came to their ends (`Sound.effects_of_scriptRuns`).
-/

import StrategyBench.Proofs.Sandbox.DeclaringCalls

namespace StrategyBench.Sandbox

open Lua Program

/-! ## Sessions -/

/-- A call that has not come to its end. -/
structure Underway where
  capability : Capability
  args : List Value
  /-- The heap that the call has met. -/
  met : Heap
  /-- The heap that its program has got to. -/
  heap : Heap
  rest : Declaring (List Value)
  /-- What its program has emitted. -/
  declared : List Declared

/-- A call that has come to its end. -/
structure Completed where
  capability : Capability
  args : List Value
  met : Heap
  /-- Nothing if the call has failed. -/
  answer? : Option (List Value)
  declared : List Declared

def Underway.completed (u : Underway) (answer? : Option (List Value)) : Completed :=
  ⟨u.capability, u.args, u.met, answer?, u.declared⟩

/-- A call waits for a function of the script. -/
def Underway.Waits (u : Underway) : Prop := ∃ f args next, u.rest = .call f args next

structure Session where
  /-- The innermost call first. -/
  underway : List Underway := []
  /-- All that has been declared so far. -/
  effects : List Declared := []
  /-- In the order in which the calls came to their ends. -/
  log : List Completed := []

namespace Session

/-- The script runs: no call is under way, or the innermost one waits for a function of the script. -/
def ScriptRuns (s : Session) : Prop := ∀ u ∈ s.underway.head?, u.Waits

/-- What has been collected so far. -/
def collected (s : Session) : Collected := .ofEffects s.effects

inductive Step (x : Fixtures) : Session → Session → Prop
  /-- The script calls a capability, on whatever heap it has made. -/
  | call {s : Session} (c : Capability) (args : List Value) (h : Heap) (hscript : s.ScriptRuns)
    (hc : c.declares = true) : Step x s { s with underway := ⟨c, args, h, h, c.run x args, []⟩ :: s.underway }
  | heap {u : Underway} {us : List Underway} {es : List Declared} {log : List Completed} {op : HeapOp}
    {next : Value → Declaring (List Value)} (hrest : u.rest = .heap op next)
    (hallowed : Machine.refusal? u.heap op = none) :
    Step x ⟨u :: us, es, log⟩
      ⟨{ u with rest := next (Machine.applyOp u.heap op).1, heap := (Machine.applyOp u.heap op).2 } :: us, es, log⟩
  /-- The function that a call waits for answers, and leaves any heap. -/
  | answer {u : Underway} {us : List Underway} {es : List Declared} {log : List Completed} {f : Value}
    {args : List Value} {next : List Value → Declaring (List Value)} (vs : List Value) (h : Heap)
    (hrest : u.rest = .call f args next) :
    Step x ⟨u :: us, es, log⟩ ⟨{ u with rest := next vs, heap := h } :: us, es, log⟩
  | emit {u : Underway} {us : List Underway} {es : List Declared} {log : List Completed} {e : Declared}
    {next : Unit → Declaring (List Value)} (hrest : u.rest = .emit e next) :
    Step x ⟨u :: us, es, log⟩ ⟨{ u with rest := next (), declared := u.declared ++ [e] } :: us, es ++ [e], log⟩
  | finish {u : Underway} {us : List Underway} {es : List Declared} {log : List Completed} {vs : List Value}
    (hrest : u.rest = .done vs) : Step x ⟨u :: us, es, log⟩ ⟨us, es, log ++ [u.completed (some vs)]⟩
  /-- By itself, by an error of a function that it has called, or because memory has run out. -/
  | fail {u : Underway} {us : List Underway} {es : List Declared} {log : List Completed}
    (hrest : ∀ vs, u.rest ≠ .done vs) : Step x ⟨u :: us, es, log⟩ ⟨us, es, log ++ [u.completed none]⟩

inductive Reach (x : Fixtures) : Session → Prop
  | start : Reach x {}
  | step {s s' : Session} (hs : Reach x s) (hstep : Step x s s') : Reach x s'

end Session

/-! ## Calls -/

/-- What a completed call should have declared. -/
inductive Completed.Right (x : Fixtures) : Completed → Prop
  | answered {c : Capability} {args vs : List Value} {h : Heap} {d : Declared} (hd : Capability.Declares x c args h d) :
    Right x ⟨c, args, h, some vs, [d]⟩
  | failed (c : Capability) (args : List Value) (h : Heap) : Right x ⟨c, args, h, none, []⟩

/-- A call is partway through its program. -/
structure Underway.Sound (x : Fixtures) (u : Underway) : Prop where
  declares : u.capability.declares = true
  /-- However the rest ends, the whole may end. -/
  leads : ∀ r h' es, u.rest.Ends anyCalls u.heap r h' es →
    (u.capability.run x u.args).Ends anyCalls u.met r h' (u.declared ++ es)
  /-- Nothing has been declared before the answer is there. -/
  last : u.declared = [] ∧ u.rest.EmitsLast ∨ ∃ vs, u.rest = .done vs

namespace Underway

variable {x : Fixtures} {u : Underway}

theorem sound_called {c : Capability} (hc : c.declares = true) (args : List Value) (h : Heap) :
    Sound x ⟨c, args, h, h, c.run x args, []⟩ where
  declares := hc
  leads _ _ _ hend := hend
  last := .inl ⟨rfl, Capability.emitsLast_run x hc args⟩

theorem Sound.emitsLast (hu : u.Sound x) (hrest : ∀ vs, u.rest ≠ .done vs) : u.declared = [] ∧ u.rest.EmitsLast :=
  hu.last.resolve_right fun ⟨vs, hdone⟩ => hrest vs hdone

theorem Sound.declared_of_waits (hu : u.Sound x) (hwaits : u.Waits) : u.declared = [] := by
  obtain ⟨f, args, next, hrest⟩ := hwaits
  refine (hu.emitsLast fun vs hdone => ?_).1
  rw [hrest] at hdone
  cases hdone

theorem Sound.heap (hu : u.Sound x) {op : HeapOp} {next : Value → Declaring (List Value)}
    (hrest : u.rest = .heap op next) (hallowed : Machine.refusal? u.heap op = none) :
    Sound x { u with rest := next (Machine.applyOp u.heap op).1, heap := (Machine.applyOp u.heap op).2 } where
  declares := hu.declares
  leads r h' es hend := hu.leads r h' es (hrest ▸ .heap hallowed hend)
  last := by
    obtain ⟨hnone, hlast⟩ := hu.emitsLast fun vs hdone => nomatch hrest.symm.trans hdone
    rw [hrest] at hlast
    exact .inl ⟨hnone, hlast _⟩

theorem Sound.answer (hu : u.Sound x) {f : Value} {args : List Value} {next : List Value → Declaring (List Value)}
    (hrest : u.rest = .call f args next) (vs : List Value) (h : Heap) :
    Sound x { u with rest := next vs, heap := h } where
  declares := hu.declares
  leads r h' es hend := hu.leads r h' es (hrest ▸ .call trivial hend)
  last := by
    obtain ⟨hnone, hlast⟩ := hu.emitsLast fun vs hdone => nomatch hrest.symm.trans hdone
    rw [hrest] at hlast
    exact .inl ⟨hnone, hlast vs⟩

theorem Sound.emit (hu : u.Sound x) {e : Declared} {next : Unit → Declaring (List Value)}
    (hrest : u.rest = .emit e next) : Sound x { u with rest := next (), declared := u.declared ++ [e] } where
  declares := hu.declares
  leads r h' es hend := by
    rw [List.append_assoc]
    exact hu.leads r h' (e :: es) (hrest ▸ .emit hend)
  last := by
    obtain ⟨-, hlast⟩ := hu.emitsLast fun vs hdone => nomatch hrest.symm.trans hdone
    rw [hrest] at hlast
    exact .inr hlast

theorem Sound.finish (hu : u.Sound x) {vs : List Value} (hrest : u.rest = .done vs) :
    (u.completed (some vs)).Right x := by
  have hend := hu.leads (.ok vs) u.heap [] (hrest ▸ .done vs u.heap)
  rw [List.append_nil] at hend
  obtain ⟨d, hd, hdeclares⟩ := Capability.declares_of_ends hu.declares hend
  rw [completed, hd]
  exact .answered hdeclares

theorem Sound.fail (hu : u.Sound x) (hrest : ∀ vs, u.rest ≠ .done vs) : (u.completed none).Right x := by
  rw [completed, (hu.emitsLast hrest).1]
  exact .failed ..

end Underway

/-! ## The invariant -/

namespace Session

/-- All calls are right, those under way so far; what they have declared is all that has been declared. -/
structure Sound (x : Fixtures) (s : Session) : Prop where
  underway : ∀ u ∈ s.underway, u.Sound x
  waiting : ∀ u ∈ s.underway.tail, u.Waits
  log : ∀ e ∈ s.log, e.Right x
  effects : s.effects = s.log.flatMap Completed.declared ++ s.underway.flatMap Underway.declared

variable {x : Fixtures} {s s' : Session}

theorem flatMap_declared_eq_nil {us : List Underway} (hsound : ∀ u ∈ us, u.Sound x) (hwaits : ∀ u ∈ us, u.Waits) :
    us.flatMap Underway.declared = [] :=
  List.flatMap_eq_nil_iff.mpr fun u hu => (hsound u hu).declared_of_waits (hwaits u hu)

theorem sound_start : Sound x {} where
  underway := by simp
  waiting := by simp
  log := by simp
  effects := rfl

/-- The innermost call takes a step, and declares `new`. -/
theorem Sound.advance {u u' : Underway} {us : List Underway} {es : List Declared} {log : List Completed}
    (hs : Sound x ⟨u :: us, es, log⟩) (hu' : u'.Sound x) (new : List Declared)
    (hnew : u'.declared = u.declared ++ new) : Sound x ⟨u' :: us, es ++ new, log⟩ where
  underway := List.forall_mem_cons.mpr ⟨hu', (List.forall_mem_cons.mp hs.underway).2⟩
  waiting := hs.waiting
  log := hs.log
  effects := by
    have houter := flatMap_declared_eq_nil (List.forall_mem_cons.mp hs.underway).2 hs.waiting
    have heffects := hs.effects
    simp only [List.flatMap_cons, houter, List.append_nil] at heffects ⊢
    rw [heffects, hnew, List.append_assoc]

/-- The innermost call comes to its end. -/
theorem Sound.complete {u : Underway} {us : List Underway} {es : List Declared} {log : List Completed}
    (hs : Sound x ⟨u :: us, es, log⟩) {answer? : Option (List Value)} (hright : (u.completed answer?).Right x) :
    Sound x ⟨us, es, log ++ [u.completed answer?]⟩ where
  underway := (List.forall_mem_cons.mp hs.underway).2
  waiting w hw := hs.waiting w (List.mem_of_mem_tail hw)
  log := List.forall_mem_append.mpr ⟨hs.log, by simpa using hright⟩
  effects := by
    have heffects := hs.effects
    simp only [List.flatMap_cons] at heffects
    simp only [heffects, List.flatMap_append, List.append_assoc, List.flatMap_singleton]
    rfl

/-- While the script runs all calls wait, the innermost one too. -/
theorem Sound.all_wait (hs : s.Sound x) (hscript : s.ScriptRuns) : ∀ u ∈ s.underway, u.Waits := by
  intro u hu
  cases hunderway : s.underway with
  | nil => simp [hunderway] at hu
  | cons w us =>
    rw [hunderway] at hu
    rcases List.mem_cons.mp hu with rfl | hu
    · exact hscript u (by simp [hunderway])
    · exact hs.waiting u (by simpa [hunderway] using hu)

theorem Sound.step (hs : s.Sound x) (hstep : Step x s s') : s'.Sound x := by
  cases hstep with
  | call c args h hscript hc =>
    have hcalled := List.forall_mem_cons.mpr ⟨Underway.sound_called hc args h, hs.underway⟩
    exact ⟨hcalled, hs.all_wait hscript, hs.log, hs.effects⟩
  | @heap u us es log op next hrest hallowed =>
    have hu := (hs.underway u List.mem_cons_self).heap hrest hallowed
    simpa using hs.advance hu [] (List.append_nil _).symm
  | @answer u us es log f args next vs h hrest =>
    have hu := (hs.underway u List.mem_cons_self).answer hrest vs h
    simpa using hs.advance hu [] (List.append_nil _).symm
  | @emit u us es log e next hrest => exact hs.advance ((hs.underway u List.mem_cons_self).emit hrest) [e] rfl
  | @finish u us es log vs hrest => exact hs.complete ((hs.underway u List.mem_cons_self).finish hrest)
  | @fail u us es log hrest => exact hs.complete ((hs.underway u List.mem_cons_self).fail hrest)

theorem Reach.sound (hreach : Reach x s) : s.Sound x := by
  induction hreach with
  | start => exact sound_start
  | step _ hstep ih => exact ih.step hstep

/-- While the script runs, all that has been declared is what the completed calls have declared. -/
theorem Sound.effects_of_scriptRuns (hs : s.Sound x) (hscript : s.ScriptRuns) :
    s.effects = s.log.flatMap Completed.declared := by
  rw [hs.effects, flatMap_declared_eq_nil hs.underway (hs.all_wait hscript), List.append_nil]

end Session

end StrategyBench.Sandbox
