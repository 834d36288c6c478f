/-
StrategyBench.Proofs.Sandbox.ScriptSession — the calls of a script are those of a session.

A machine that runs a script goes along with a session (`Follows`): either nothing that declares by itself is running
on it, and the calls under way are among what waits; or the innermost call is running, and has got as far as in the
session. Each step of the machine is a step of the session, or is of no matter to it (`Follows.step`), so a session can
be told for every moment of every script (`Stage.session`).

Two things have to be seen for that. A step starts at most one built-in function, which is where a call begins. And a
call that has its answer comes to its end: the memory has been measured just before it declared something, so it
does not run out in the last step (`Heap.Roomy`).
-/

import Mathlib.Logic.Relation
import StrategyBench.Proofs.Lua.Entering
import StrategyBench.Proofs.Sandbox.Declarations
import StrategyBench.Proofs.Sandbox.Refusal
import StrategyBench.Proofs.Sandbox.Session

namespace StrategyBench.Sandbox

open Lua Program

/-! ## Built-in functions -/

theorem Capability.silent_of_declares (x : Fixtures) {c : Capability} (hc : c.declares = false) (args : List Value) :
    (c.run x args).Emits noEffect := by
  cases c with
  | builder c kind => cases hc
  | defineStrategy => cases hc
  | require => exact emits_requireModule x args
  | guard g => exact g.emits_call args
  | _ => trivial

/-- A built-in function emits nothing, or it is a capability that declares. -/
theorem Environment.silent_or_declares (x : Fixtures) (cell : Nat) (g : Native) (args : List Value) :
    ((library x cell).run g args).Emits noEffect ∨
      ∃ c : Capability, c.declares = true ∧ g = .host c.name ∧ (library x cell).run g args = c.run x args := by
  cases g with
  | host name =>
    cases hnamed : Capability.named name with
    | none =>
      left
      simp only [library, hnamed]
      trivial
    | some c =>
      have hname : c.name = name := by simpa using List.find?_some hnamed
      simp only [library, hnamed]
      cases hc : c.declares with
      | false => exact .inl (Capability.silent_of_declares x hc args)
      | true => exact .inr ⟨c, hc, by rw [hname], rfl⟩
  | _ => exact .inl (emits_lift _)

/-! ## Following -/

/-- The calls that are under way are among what waits, and nothing else there declares. -/
inductive WaitFor : List (Waiting Declared) → List Underway → Prop
  | nothing : WaitFor [] []
  | other {w : Waiting Declared} {ws : List (Waiting Declared)} {us : List Underway} (hw : w.Emits noEffect)
    (hws : WaitFor ws us) : WaitFor (w :: ws) us
  | call {u : Underway} {ws : List (Waiting Declared)} {us : List Underway} {f : Value} {args : List Value}
    {next : List Value → Declaring (List Value)} {reserved : Nat} (hrest : u.rest = .call f args next)
    (hws : WaitFor ws us) : WaitFor (.program (.native (.host u.capability.name)) next reserved :: ws) (u :: us)

/-- A machine is where a session is. -/
inductive Follows (m : Machine Declared) : Session → Prop
  /-- Nothing that declares by itself is running. -/
  | script {us : List Underway} {es : List Declared} {log : List Completed} (hrunning : m.running.Emits noEffect)
    (hwaiting : WaitFor m.waiting us) (heffects : m.effects = es.reverse) : Follows m ⟨us, es, log⟩
  /-- The innermost call is running; if it has its answer there is room for its last step. -/
  | call {u : Underway} {us : List Underway} {es : List Declared} {log : List Completed}
    (hat : m.At (.native (.host u.capability.name)) u.rest u.heap m.waiting es.reverse)
    (hwaiting : WaitFor m.waiting us) (hroomy : u.rest.EmitsLast ∨ m.heap.Roomy) : Follows m ⟨u :: us, es, log⟩

theorem WaitFor.waits {ws : List (Waiting Declared)} {us : List Underway} (hws : WaitFor ws us) :
    ∀ u ∈ us, u.Waits := by
  induction hws with
  | nothing => simp
  | other _ _ ih => exact ih
  | call hrest _ ih => exact List.forall_mem_cons.mpr ⟨⟨_, _, _, hrest⟩, ih⟩

theorem WaitFor.above {above ws : List (Waiting Declared)} {us : List Underway} (hws : WaitFor ws us)
    (habove : ∀ w ∈ above, w.Emits noEffect) : WaitFor (above ++ ws) us := by
  induction above with
  | nil => exact hws
  | cons w above ih =>
    obtain ⟨hw, hrest⟩ := List.forall_mem_cons.mp habove
    exact .other hw (ih hrest)

section Steps

variable {x : Fixtures} {cell : Nat} {m m' : Machine Declared} {ws : List (Waiting Declared)} {us : List Underway}
  {es : List Declared} {log : List Completed}

theorem WaitFor.of_grown {effects : List Declared} (hws : WaitFor ws us) (hm : m.Grown noEffect ws effects) :
    WaitFor m.waiting us := by
  obtain ⟨above, habove, hsilent⟩ := hm.waiting
  rw [habove]
  exact hws.above hsilent

/-- What has grown without declaring anything is where the session is. -/
theorem follows_of_grown (hm : m.Grown noEffect ws es.reverse) (hws : WaitFor ws us) : Follows m ⟨us, es, log⟩ :=
  .script hm.running (hws.of_grown hm) hm.effects_of_silent

/-- A session goes on by at most one step, and the machine is where it is then. -/
def GoesOn (x : Fixtures) (s : Session) (m : Machine Declared) : Prop :=
  ∃ s', Relation.ReflGen (Session.Step x) s s' ∧ Follows m s'

/-- Where a machine starts a built-in function, a call may begin. -/
theorem goesOn_of_enters (hm : m.Grown noEffect ws es.reverse) (hws : WaitFor ws us)
    (henters : Machine.Enters (Environment.library x cell) m m') : GoesOn x ⟨us, es, log⟩ m' := by
  cases henters with
  | same => exact ⟨_, .refl, follows_of_grown hm hws⟩
  | entered g args =>
    rcases Environment.silent_or_declares x cell g args with hsilent | ⟨c, hc, rfl, hrun⟩
    · exact ⟨_, .refl, follows_of_grown (m := { m with running := _ }) ⟨hsilent, hm.waiting, hm.effects⟩ hws⟩
    · have hwaits := hws.of_grown hm
      have hscript : Session.ScriptRuns ⟨us, es, log⟩ := fun u hu => hws.waits u (List.mem_of_mem_head? hu)
      refine ⟨_, .single (.call c args m.heap hscript hc), .call ?_ hwaits (.inl (Capability.emitsLast_run x hc args))⟩
      rw [hrun]
      exact ⟨rfl, rfl, rfl, hm.effects_of_silent⟩

/-! ### The steps of a call -/

section Calls

variable {u : Underway} {p : Purpose}

/-- A call that an error stops has failed. -/
theorem goesOn_of_stopped {r : Raise} (hrest : ∀ vs, u.rest ≠ .done vs)
    (hstopped : m.StoppedBy r p u.heap ws es.reverse) (hws : WaitFor ws us) : GoesOn x ⟨u :: us, es, log⟩ m :=
  ⟨_, .single (.fail hrest), follows_of_grown hstopped.grown hws⟩

theorem goesOn_of_done {vs : List Value} (hrest : u.rest = .done vs)
    (hat : m.At (.native (.host u.capability.name)) (.done vs) u.heap ws es.reverse) (hws : WaitFor ws us)
    (hroomy : m.heap.Roomy) : GoesOn x ⟨u :: us, es, log⟩ (m.step (Environment.library x cell)) := by
  rcases hat.step (Environment.library x cell) with ⟨hnot, -⟩ | ⟨m', hat', -, hstep⟩
  · exact absurd hroomy hnot
  · have hgrown : (m.step (Environment.library x cell)).Grown noEffect m'.waiting m'.effects := by
      rw [hstep]
      exact Machine.grown_finish { m' with running := .done [] } (.native (.host u.capability.name)) vs
    rw [hat'.waiting, hat'.effects] at hgrown
    exact ⟨_, .single (.finish hrest), follows_of_grown hgrown hws⟩

theorem goesOn_of_heap {op : HeapOp} {next : Value → Declaring (List Value)} (hrest : u.rest = .heap op next)
    (hat : m.At (.native (.host u.capability.name)) (.heap op next) u.heap ws es.reverse) (hws : WaitFor ws us)
    (hlast : ∀ v, (next v).EmitsLast) : GoesOn x ⟨u :: us, es, log⟩ (m.step (Environment.library x cell)) := by
  have hne : ∀ vs, u.rest ≠ .done vs := by simp [hrest]
  cases hrefusal : Machine.refusal? u.heap op with
  | some r =>
    obtain ⟨r, hstopped⟩ := hat.refused_step hrefusal (Environment.library x cell)
    exact goesOn_of_stopped hne hstopped hws
  | none =>
    rcases hat.heap_step hrefusal (Environment.library x cell) with hstopped | hat'
    · exact goesOn_of_stopped hne hstopped hws
    · exact ⟨_, .single (.heap hrest hrefusal), .call (hat'.waiting ▸ hat') (hat'.waiting ▸ hws) (.inl (hlast _))⟩

/-- A call that calls a function waits for it, and the function may be a call too. -/
theorem goesOn_of_called {f : Value} {args : List Value} {next : List Value → Declaring (List Value)}
    (hrest : u.rest = .call f args next)
    (hat : m.At (.native (.host u.capability.name)) (.call f args next) u.heap ws es.reverse) (hws : WaitFor ws us) :
    GoesOn x ⟨u :: us, es, log⟩ (m.step (Environment.library x cell)) := by
  rcases hat.step (Environment.library x cell) with ⟨-, hstopped⟩ | ⟨m', hat', -, hstep⟩
  · exact goesOn_of_stopped (by simp [hrest]) hstopped hws
  · obtain ⟨m₁, hgrown, henters⟩ := Machine.grown_of_called (Environment.library x cell)
      { m' with running := .done [] } (.native (.host u.capability.name)) next f args
    rw [hat'.waiting, hat'.effects] at hgrown
    rw [hstep]
    exact goesOn_of_enters hgrown (.call hrest hws) henters

theorem goesOn_of_emit {e : Declared} {next : Unit → Declaring (List Value)} (hrest : u.rest = .emit e next)
    (hat : m.At (.native (.host u.capability.name)) (.emit e next) u.heap ws es.reverse) (hws : WaitFor ws us) :
    GoesOn x ⟨u :: us, es, log⟩ (m.step (Environment.library x cell)) := by
  rcases hat.emit_step (Environment.library x cell) with hstopped | ⟨hat', hroomy⟩
  · exact goesOn_of_stopped (by simp [hrest]) hstopped hws
  · refine ⟨_, .single (.emit hrest), .call ?_ (hat'.waiting ▸ hws) (.inr hroomy)⟩
    rw [hat'.waiting, List.reverse_append]
    exact hat'

theorem goesOn_of_call (hu : u.Sound x) (hat : m.At (.native (.host u.capability.name)) u.rest u.heap ws es.reverse)
    (hws : WaitFor ws us) (hroomy : u.rest.EmitsLast ∨ m.heap.Roomy) :
    GoesOn x ⟨u :: us, es, log⟩ (m.step (Environment.library x cell)) := by
  cases hrest : u.rest with
  | done vs =>
    rw [hrest] at hat hroomy
    exact goesOn_of_done hrest hat hws (hroomy.resolve_left id)
  | fail r =>
    rw [hrest] at hat
    obtain ⟨r, hstopped⟩ := hat.fail_step (Environment.library x cell)
    exact goesOn_of_stopped (by simp [hrest]) hstopped hws
  | heap op next =>
    have hlast := (hu.emitsLast (by simp [hrest])).2
    rw [hrest] at hat hlast
    exact goesOn_of_heap hrest hat hws hlast
  | call f args next =>
    rw [hrest] at hat
    exact goesOn_of_called hrest hat hws
  | emit e next =>
    rw [hrest] at hat
    exact goesOn_of_emit hrest hat hws

end Calls

/-! ### The steps of a script -/

/-- A step after something that waited for it has ended. -/
theorem goesOn_of_ended (hs : Session.Sound x ⟨us, es, log⟩) (hended : m.isWorking = false)
    (hwaiting : WaitFor m.waiting us) (heffects : m.effects = es.reverse) :
    GoesOn x ⟨us, es, log⟩ (m.step (Environment.library x cell)) := by
  have hrunning := (Machine.isWorking_eq_false m).mp hended
  generalize hws : m.waiting = ws at hwaiting
  cases hwaiting with
  | nothing =>
    have houtcome : m.outcome?.isSome := by
      rcases hrunning with ⟨results, hdone⟩ | ⟨fault, hfailed⟩ <;> simp [Machine.outcome?, *]
    rw [Machine.step_of_outcome _ houtcome]
    refine ⟨_, .refl, .script ?_ (hws ▸ .nothing) heffects⟩
    rcases hrunning with ⟨results, hdone⟩ | ⟨fault, hfailed⟩ <;> simp [Running.Emits, *]
  | @other w ws us hw hws' =>
    rcases hrunning with ⟨results, hdone⟩ | ⟨fault, hfailed⟩
    · rw [Machine.step_of_done _ hdone hws]
      exact ⟨_, .refl, follows_of_grown (heffects ▸ Machine.grown_resume { m with waiting := ws } hw results) hws'⟩
    · rw [Machine.step_of_failed _ hfailed hws]
      exact ⟨_, .refl, follows_of_grown (heffects ▸ Machine.grown_unwind { m with waiting := ws } w fault) hws'⟩
  | @call u ws us f args next reserved hrest hws' =>
    have hne : ∀ vs, u.rest ≠ .done vs := by simp [hrest]
    rcases hrunning with ⟨results, hdone⟩ | ⟨fault, hfailed⟩
    · have hnext := ((hs.underway u List.mem_cons_self).emitsLast hne).2
      rw [hrest] at hnext
      rw [Machine.step_of_done _ hdone hws]
      exact ⟨_, .single (.answer results { m.heap with reserved := reserved } hrest),
        .call ⟨rfl, rfl, rfl, heffects⟩ hws' (.inl (hnext results))⟩
    · rw [Machine.step_of_failed _ hfailed hws]
      exact ⟨_, .single (.fail hne), .script trivial hws' heffects⟩

theorem Follows.step {s : Session} (hs : s.Sound x) (hm : Follows m s) :
    GoesOn x s (m.step (Environment.library x cell)) := by
  cases hm with
  | script hrunning hwaiting heffects =>
    cases hworking : m.isWorking with
    | false => exact goesOn_of_ended hs hworking hwaiting heffects
    | true =>
      obtain ⟨m', hgrown, henters⟩ := Machine.grown_of_silent (Environment.library x cell) hrunning hworking
      exact goesOn_of_enters (heffects ▸ hgrown) hwaiting henters
  | call hat hwaiting hroomy => exact goesOn_of_call (hs.underway _ List.mem_cons_self) hat hwaiting hroomy

/-- However long a machine runs on, it is where a session is. -/
theorem Follows.after {s : Session} (hreach : s.Reach x) (hm : Follows m s) (n : Nat) :
    ∃ s' : Session, s'.Reach x ∧ Follows (m.after (Environment.library x cell) n) s' := by
  induction n generalizing m s with
  | zero => exact ⟨s, hreach, hm⟩
  | succ n ih =>
    obtain ⟨s', hstep, hm'⟩ := hm.step hreach.sound
    cases hstep with
    | refl => exact ih hreach hm'
    | single hstep => exact ih (hreach.step hstep) hm'

end Steps

/-! ## Scripts -/

variable {u : Conditions} {s : SandboxSettings} {c : CompiledScript} {m : Machine Declared} {session : Session}

theorem Follows.collected_eq (hm : Follows m session) : collected m = session.collected := by
  cases hm with
  | script _ _ heffects => rw [collected, heffects, List.reverse_reverse, Session.collected]
  | call hat => rw [collected, hat.effects, List.reverse_reverse, Session.collected]

/-- When a machine has ended no call is under way. -/
theorem Follows.underway_of_outcome (hm : Follows m session) (hend : m.outcome?.isSome) : session.underway = [] := by
  unfold Machine.outcome? at hend
  cases hm with
  | script _ hwaiting _ =>
    split at hend
    · rename_i hnone
      rw [hnone] at hwaiting
      cases hwaiting
      rfl
    · rename_i hnone
      rw [hnone] at hwaiting
      cases hwaiting
      rfl
    · cases hend
  | call hat => simp [hat.running] at hend

theorem outcome_of_resultsOf {results : List Value} (hresults : resultsOf s m = .ok results) : m.outcome?.isSome := by
  unfold resultsOf Machine.outcome at hresults
  cases houtcome : m.outcome? with
  | some o => rfl
  | none => simp [houtcome] at hresults

/-- A machine that has ended is left where it is when a program that declares nothing is put on it. -/
theorem Follows.put (hm : Follows m session) (hend : m.outcome?.isSome) {p : Purpose} {rest : Declaring (List Value)}
    (hrest : rest.Emits noEffect) : Follows { m with running := .program p rest } session := by
  cases hm with
  | script _ hwaiting heffects => exact .script hrest hwaiting heffects
  | call hat => simp [Machine.outcome?, hat.running] at hend

theorem silent_readRun (t : Nat) : (readRun t).Emits noEffect := Emits.bind (Operation.emits_index _ _) fun _ => trivial

theorem follows_start (u : Conditions) (s : SandboxSettings) (chunk : Chunk) : Follows (scriptMachine u s chunk) {} :=
  follows_of_grown (Machine.grown_enter _ _ _) .nothing

theorem Follows.run (hreach : session.Reach (prepared u s).fixtures) (hm : Follows m session) (n : Nat) :
    ∃ session' : Session, session'.Reach (prepared u s).fixtures ∧ Follows (m.run (builtins u s) n) session' := by
  obtain ⟨k, hk⟩ := Machine.run_eq_after (builtins u s) n m
  rw [hk]
  exact hm.after hreach k

/-- At every moment of both stages of a script the machine is where a session is. -/
theorem Stage.exists_session (hstage : Stage u s c m) (n : Nat) :
    ∃ session : Session, session.Reach (prepared u s).fixtures ∧ Follows (m.after (builtins u s) n) session := by
  cases hstage with
  | @script chunk hload => exact (follows_start u s chunk).after .start n
  | @contract chunk results t m hload hrun hresults hexport =>
    obtain ⟨session, hreach, hm⟩ := (follows_start u s chunk).run .start (stepLimit s u.steps)
    rw [hrun] at hm
    exact (hm.put (outcome_of_resultsOf hresults) (silent_readRun t)).after hreach n

/-- The look at `run` in an export goes on with the session of the script, and ends with no call under way. -/
theorem Follows.checkExport (hreach : session.Reach (prepared u s).fixtures) (hm : Follows m session)
    (hend : m.outcome?.isSome) {steps : Nat} {results : List Value} {m' : Machine Declared}
    (hcheck : checkExport s steps (builtins u s) m results = .ok m') :
    ∃ session' : Session, session'.Reach (prepared u s).fixtures ∧ Follows m' session' ∧ session'.underway = [] := by
  unfold Sandbox.checkExport at hcheck
  split at hcheck
  · cases hcheck
  · rename_i t _
    obtain ⟨session', hreach', hm'⟩ :=
      (hm.put (p := .operation) hend (silent_readRun t)).run hreach (stepLimit s steps)
    obtain ⟨found, hfound, hcheck⟩ := bind_eq_ok hcheck
    obtain ⟨-, -, hcheck⟩ := bind_eq_ok hcheck
    obtain rfl := Except.ok.inj hcheck
    exact ⟨session', hreach', hm', hm'.underway_of_outcome (outcome_of_resultsOf hfound)⟩
  · cases hcheck

/-- A script that is accepted is a session in which all calls have come to their ends. -/
theorem session_of_accepted {compiler : Compiler} {source : String} {schema : Schema}
    (h : executeUnder u compiler s source = .ok schema) :
    ∃ session : Session, session.Reach (prepared u s).fixtures ∧ session.underway = [] ∧
      session.collected.schema = schema := by
  unfold executeUnder at h
  split at h
  · cases h
  · obtain ⟨declared, hscript, h⟩ := bind_eq_ok h
    obtain ⟨rfl, -⟩ := distinctKeys_eq_ok h
    unfold runScript at hscript
    split at hscript
    · cases hscript
    · obtain ⟨chunk, -, hscript⟩ := bind_eq_ok hscript
      obtain ⟨results, hresults, hscript⟩ := bind_eq_ok hscript
      obtain ⟨last, hcheck, hscript⟩ := bind_eq_ok hscript
      obtain rfl := Except.ok.inj hscript
      obtain ⟨session, hreach, hm⟩ := (follows_start u s chunk).run .start (stepLimit s u.steps)
      obtain ⟨session', hreach', hm', hnone⟩ := hm.checkExport hreach (outcome_of_resultsOf hresults) hcheck
      exact ⟨session', hreach', hnone, congrArg Collected.schema hm'.collected_eq.symm⟩

end StrategyBench.Sandbox
