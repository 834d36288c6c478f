/-
StrategyBench.Proofs.Sandbox.Refusal — what becomes of a script that asks for a module it may not have.

The call raises the refusal, and from there it is an error like others: it passes through functions of
the script, callbacks and metamethods unchanged (`refused_module_ends_script`), for there is no way
to catch an error. But an error of what closes a variable on the way takes its place
(`closing_error_replaces_refusal`), which nothing remembers then.
-/

import StrategyBench.Proofs.Decisions
import StrategyBench.Proofs.Lua.Unwinding
import StrategyBench.Sandbox.Execute

namespace StrategyBench.Sandbox

open Lua

/-! ## The machines of a script -/

/-- The heap that a script starts with. -/
abbrev prepared (u : Conditions) (s : SandboxSettings) : Environment.Prepared :=
  Environment.prepare u.seed s.memoryLimitBytes

/-- The built-in functions that a script runs with. -/
abbrev builtins (u : Conditions) (s : SandboxSettings) : Library Declared :=
  Environment.library (prepared u s).fixtures (prepared u s).cell

/-- A machine that is about to run a script. -/
def scriptMachine (u : Conditions) (s : SandboxSettings) (chunk : Chunk) : Machine Declared :=
  Machine.start (prepared u s).heap chunk (prepared u s).cell

/-- Functions of a script run in two stages: while the script does, and when `run` is looked up in
what it has exported. -/
inductive Stage (u : Conditions) (s : SandboxSettings) (c : CompiledScript) : Machine Declared → Prop
  | script {chunk : Chunk} (hload : load c = .ok chunk) : Stage u s c (scriptMachine u s chunk)
  | contract {chunk : Chunk} {results : List Value} {t : Nat} {m : Machine Declared}
    (hload : load c = .ok chunk)
    (hrun : (scriptMachine u s chunk).run (builtins u s) (stepLimit s u.steps) = m)
    (hresults : resultsOf s m = .ok results)
    (hexport : Contract.exported results (collected m).registered = .table t) :
    Stage u s c { m with running := .program .operation (readRun t) }

/-- A call of `require` with a name is about to run. -/
def AsksFor (u : Conditions) (s : SandboxSettings) (name : String) (m : Machine Declared) : Prop :=
  ∃ args, m.running = .program (.native (.host "require")) ((builtins u s).run (.host "require") args) ∧
    ((args.getD 0 .nil).text?).bind Bytes.text? = some name

/-! ## The refusal -/

variable {u : Conditions} {s : SandboxSettings}

theorem builtins_run_require (u : Conditions) (s : SandboxSettings) (args : List Value) :
    (builtins u s).run (.host "require") args = Capability.requireModule (prepared u s).fixtures args := by
  have h : Capability.named "require" = some .require := by decide
  simp only [Environment.library, h]
  rfl

theorem requireModule_of_refused {x : Fixtures} {args : List Value} {name : String}
    (hargs : ((args.getD 0 .nil).text?).bind Bytes.text? = some name) (hname : name ≠ sdkModule) :
    Capability.requireModule x args = Program.fail (.host (.refusedModule name)) := by
  obtain ⟨text, htext, hread⟩ := Option.bind_eq_some_iff.mp hargs
  simp only [Capability.requireModule, htext, hread, hname, if_false, Program.raise]

theorem AsksFor.running {name : String} {m : Machine Declared} (h : AsksFor u s name m)
    (hname : name ≠ sdkModule) :
    m.running = .program (.native (.host "require")) (.fail (.host (.refusedModule name))) := by
  obtain ⟨args, hrunning, hargs⟩ := h
  rw [hrunning, builtins_run_require, requireModule_of_refused hargs hname]

/-- The name of a refused module, while the call that asks for it runs. -/
def refusing? (m : Machine Declared) : Option String :=
  match m.running with
  | .program (.native (.host "require")) (.fail (.host (.refusedModule name))) => some name
  | _ => none

def isRefusalOf (name : String) : Fault → Bool
  | .host (.refusedModule other) => other = name
  | _ => false

theorem isRefusalOf_iff {name : String} (fault : Fault) :
    isRefusalOf name fault = true ↔ fault = .host (.refusedModule name) := by
  unfold isRefusalOf
  split <;> simp_all

theorem asksFor_of_refusing {name : String} {m : Machine Declared} (h : refusing? m = some name)
    (hname : name ≠ sdkModule)
    (hread : Bytes.text? (Bytes.ofString name) = some name) : AsksFor u s name m := by
  have hargs : (([Value.ofString name].getD 0 .nil).text?).bind Bytes.text? = some name := hread
  unfold refusing? at h
  split at h
  · rename_i asked hrunning
    obtain rfl := Option.some.inj h
    exact ⟨[.ofString asked], by rw [hrunning, builtins_run_require, requireModule_of_refused hargs hname], hargs⟩
  · cases h

/-- A run in which a module was refused comes to that end, if it comes to one in time. -/
theorem resultsOf_of_refused {name : String} {m : Machine Declared} {k n : Nat}
    (hasks : AsksFor u s name (m.after (builtins u s) k)) (hname : name ≠ sdkModule)
    (hmemory : (m.after (builtins u s) k).isOutOfMemory (builtins u s) = false)
    (hclosing : (m.after (builtins u s) (k + 1)).Undisturbed (builtins u s) (.host (.refusedModule name))) :
    resultsOf s (m.run (builtins u s) n) = .error (.disallowedModule name) ∨
      resultsOf s (m.run (builtins u s) n) = .error (.timeout s.timeoutMs) := by
  have hrunning := hasks.running hname
  have hopen : (m.after (builtins u s) k).outcome? = none := by simp [Machine.outcome?, hrunning]
  cases hend : (m.run (builtins u s) n).outcome? with
  | none => exact .inr (by simp [resultsOf, Machine.outcome, hend])
  | some o =>
    have hcarries : (m.after (builtins u s) (k + 1)).Carries (.host (.refusedModule name)) := by
      rw [Machine.after_succ]
      exact Machine.carries_step_of_fail hrunning hmemory
    have hraised := Machine.run_outcome_of_carries (n := n) rfl hcarries hopen hclosing (by simp [hend])
    exact .inl (by simp [resultsOf, Machine.outcome, hraised, rejectionOf])

/-- What ends a stage of a script ends the script, unless there was no time at all. -/
theorem runScript_of_stage {c : CompiledScript} {stage : Machine Declared} (hstage : Stage u s c stage) :
    runScript u s c = .error (.timeout s.timeoutMs) ∨
      ∃ n, ∀ r, resultsOf s (stage.run (builtins u s) n) = .error r → runScript u s c = .error r := by
  by_cases hlimit : stepLimit s u.steps = 0
  · exact .inl (by simp [runScript, hlimit]; rfl)
  · refine .inr ?_
    cases hstage with
    | script hload =>
      refine ⟨stepLimit s u.steps, fun r hresults => ?_⟩
      simp only [scriptMachine] at hresults
      simp [runScript, hlimit, hload, hresults]
    | contract hload hrun hfirst hexport =>
      refine ⟨stepLimit s u.exportSteps, fun r hresults => ?_⟩
      simp only [scriptMachine] at hrun
      simp [runScript, hlimit, hload, hrun, hfirst, checkExport, hexport, hresults]

/-- A script that asks for a module it may not have is refused for it, wherever it does so, unless
something that is closed because of it raises another error, or a limit is met first. -/
theorem refused_module_ends_script {compiler : Compiler} {source : String} {c : CompiledScript}
    {stage : Machine Declared} {k : Nat} {name : String}
    (hcompile : compiler source = .ok c) (hstage : Stage u s c stage)
    (hasks : AsksFor u s name (stage.after (builtins u s) k)) (hname : name ≠ sdkModule)
    (hclosing : (stage.after (builtins u s) (k + 1)).Undisturbed (builtins u s) (.host (.refusedModule name)))
    (hmemory : (stage.after (builtins u s) k).isOutOfMemory (builtins u s) = false)
    (htime : executeUnder u compiler s source ≠ .error (.timeout s.timeoutMs)) :
    executeUnder u compiler s source = .error (.disallowedModule name) := by
  have hscript {r : Rejection} (h : runScript u s c = .error r) : executeUnder u compiler s source = .error r := by
    simp [executeUnder, hcompile, h]
  have hlate (h : runScript u s c = .error (.timeout s.timeoutMs)) :
      executeUnder u compiler s source = .error (.disallowedModule name) := absurd (hscript h) htime
  rcases runScript_of_stage hstage with hnone | ⟨n, hends⟩
  · exact hlate hnone
  · rcases resultsOf_of_refused (n := n) hasks hname hmemory hclosing with h | h
    · exact hscript (hends _ h)
    · exact hlate (hends _ h)

/-! ## Runs -/

/-- Why a script was refused. -/
def rejection? : Except Rejection Schema → Option Rejection
  | .ok _ => none
  | .error r => some r

theorem eq_error_of_rejection {result : Except Rejection Schema} {r : Rejection}
    (h : rejection? result = some r) : result = .error r := by
  cases result with
  | ok schema => cases h
  | error e => exact congrArg _ (Option.some.inj h)

/-- The chunk of a script that loads. -/
def loaded (c : CompiledScript) : Chunk := (load c).toOption.getD {}

theorem load_eq_loaded {c : CompiledScript} (h : (load c).toOption.isSome) : load c = .ok (loaded c) := by
  unfold loaded
  cases hload : load c with
  | ok chunk => rfl
  | error r => simp [hload, Except.toOption] at h

/-- A text that stays as it is compiles if it loads: both read it in the same way. -/
theorem compile_of_load {source : String} {chunk : Chunk} (h : load ⟨Source.chunkName, source⟩ = .ok chunk)
    (hsame : Source.preprocess source = source) :
    Source.compile source = .ok ⟨Source.chunkName, source⟩ := by
  unfold load at h
  split at h
  · cases h
  · cases htree : Source.tree (Bytes.ofString Source.chunkName) (Bytes.ofString source) with
    | ok f => simp only [Source.compile, hsame, htree]
    | error e => cases e <;> simp [htree] at h

/-- The machine that is about to run a source with the tools, by the settings they have of their own. -/
abbrev machineOf (source : String) : Machine Declared :=
  scriptMachine .ofTools {} (loaded ⟨Source.chunkName, source⟩)

/-- A module is asked for by a callback of a library function, below a variable that is closed. -/
def requestInCallback : String :=
  "local t <close> = setmetatable(\x7b\x7d, \x7b__close = print\x7d)\nstring.gsub('fs', 'fs', require)"

set_option maxRecDepth 100000 in
theorem request_in_callback_is_refused :
    Stage .ofTools {} ⟨Source.chunkName, requestInCallback⟩ (machineOf requestInCallback) ∧
      AsksFor .ofTools {} "fs" ((machineOf requestInCallback).after (builtins .ofTools {}) 24) ∧
      execute {} requestInCallback = .error (.disallowedModule "fs") := by
  have hload := load_eq_loaded (c := ⟨Source.chunkName, requestInCallback⟩) (by decide +kernel)
  have hcompile := compile_of_load hload (by decide +kernel)
  obtain ⟨hrefusing, hmemory, hends⟩ :
      refusing? ((machineOf requestInCallback).after (builtins .ofTools {}) 24) = some "fs" ∧
      ((machineOf requestInCallback).after (builtins .ofTools {}) 24).isOutOfMemory (builtins .ofTools {}) = false ∧
      ((machineOf requestInCallback).after (builtins .ofTools {}) (24 + 1)).endsUndisturbed (builtins .ofTools {})
        (isRefusalOf "fs") 10 = true := by decide +kernel
  have hkind : rejection? (execute {} requestInCallback) ≠ some (.timeout 3000) := by decide +kernel
  have hasks := asksFor_of_refusing (u := .ofTools) (s := {}) hrefusing (by decide) (by decide +kernel)
  exact ⟨.script hload, hasks, refused_module_ends_script hcompile (.script hload) hasks (by decide)
    (Machine.undisturbed_of_ends isRefusalOf_iff hends) hmemory fun h => hkind (by rw [execute, executeWith, h]; rfl)⟩

/-- A module is asked for below a variable whose closing raises an error. -/
def requestBelowClosing : String :=
  "local x <close> = setmetatable(\x7b\x7d, \x7b__close = function() error('oops') end\x7d)\nrequire('fs')"

set_option maxRecDepth 100000 in
/-- The error of the closing is all that is left; the module is not named. -/
theorem closing_error_replaces_refusal :
    ∃ c stage, Source.compile requestBelowClosing = .ok c ∧ Stage .ofTools {} c stage ∧
      (∃ k, AsksFor .ofTools {} "fs" (stage.after (builtins .ofTools {}) k)) ∧ "fs" ≠ sdkModule ∧
      execute {} requestBelowClosing =
        .error (.runtime "strategy:1: oops\nstack traceback:\n\t[C]: in ?") := by
  have hload := load_eq_loaded (c := ⟨Source.chunkName, requestBelowClosing⟩) (by decide +kernel)
  have hcompile := compile_of_load hload (by decide +kernel)
  obtain ⟨hrefusing, hrejected⟩ :
      refusing? ((machineOf requestBelowClosing).after (builtins .ofTools {}) 18) = some "fs" ∧
      rejection? (execute {} requestBelowClosing) =
        some (.runtime "strategy:1: oops\nstack traceback:\n\t[C]: in ?") := by decide +kernel
  exact ⟨_, _, hcompile, .script hload,
    ⟨18, asksFor_of_refusing hrefusing (by decide) (by decide +kernel)⟩, by decide,
    eq_error_of_rejection hrejected⟩

end StrategyBench.Sandbox
