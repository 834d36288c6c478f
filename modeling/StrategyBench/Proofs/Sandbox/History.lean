/-
StrategyBench.Proofs.Sandbox.History — what has been collected, as the calls tell it that have come to their ends.

The calls of a session are ordered by where they ended, so one that has interrupted another comes before it. Each
list is the last one that a strategy has brought along, and after it the fields that were declared since
(`ListHistory`); the last strategy is the registered one. Calls that failed are in the history too and add nothing to
it. That is so of every session while the script runs, and every moment of a script is one of a session
(`collected_is_history`); so it is of the schema of every script that is accepted (`accepted_schema_has_history`).
-/

import Mathlib.Data.List.Induction
import StrategyBench.Proofs.Sandbox.ScriptSession

namespace StrategyBench.Sandbox

open Lua

/-! ## What a call tells -/

/-- The list of a category that a declaration brings along. -/
def Declared.list? (c : Category) : Declared → Option (List Field)
  | .strategy _ parameters factors =>
    match c with
    | .parameter => parameters
    | .factor => factors
  | .field _ _ => none

def Declared.field? (c : Category) : Declared → Option Field
  | .field own f => if own = c then some f else none
  | .strategy _ _ _ => none

def Declared.export? : Declared → Option Value
  | .field _ _ => none
  | .strategy v _ _ => some v

namespace Completed

/-- The list of a category that a call has brought along; none if it has failed. -/
def list? (c : Category) (e : Completed) : Option (List Field) := e.declared.head?.bind (Declared.list? c)

/-- The field of a category that a call has declared; none if it has failed. -/
def field? (c : Category) (e : Completed) : Option Field := e.declared.head?.bind (Declared.field? c)

/-- What a call has registered; nothing if it has failed. -/
def export? (e : Completed) : Option Value := e.declared.head?.bind Declared.export?

end Completed

/-! ## Lists -/

/-- What the list of a category is after some completed calls: the last list that one of them has brought along,
and then the fields that were declared after it. -/
inductive ListHistory (c : Category) : List Completed → List Field → Prop
  | fresh {log : List Completed} (hnone : ∀ e ∈ log, e.list? c = none) :
    ListHistory c log (log.filterMap (Completed.field? c))
  | brought {earlier later : List Completed} {e : Completed} {fs : List Field} (hlist : e.list? c = some fs)
    (hnone : ∀ e ∈ later, e.list? c = none) :
    ListHistory c (earlier ++ e :: later) (fs ++ later.filterMap (Completed.field? c))

namespace ListHistory

variable {c : Category} {log : List Completed} {fields : List Field}

/-- One more call either brings a list along or goes on with the one that is there. -/
theorem snoc (hlog : ListHistory c log fields) (e : Completed) :
    ListHistory c (log ++ [e]) ((e.list? c).getD (fields ++ (e.field? c).toList)) := by
  cases hlist : e.list? c with
  | some fs =>
    have hbrought : ListHistory c (log ++ [e]) (fs ++ [].filterMap (Completed.field? c)) := .brought hlist (by simp)
    simpa using hbrought
  | none =>
    have hfields (es : List Completed) :
        es.filterMap (Completed.field? c) ++ (e.field? c).toList = (es ++ [e]).filterMap (Completed.field? c) := by
      rw [List.filterMap_append, List.filterMap_cons]
      cases e.field? c <;> rfl
    have hlater {es : List Completed} (hes : ∀ e ∈ es, e.list? c = none) : ∀ e' ∈ es ++ [e], e'.list? c = none :=
      List.forall_mem_append.mpr ⟨hes, by simpa using hlist⟩
    rw [Option.getD_none]
    cases hlog with
    | fresh hfresh =>
      rw [hfields]
      exact .fresh (hlater hfresh)
    | brought hearlier hrest =>
      rw [List.append_assoc, List.append_assoc, hfields, List.cons_append]
      exact .brought hearlier (hlater hrest)

end ListHistory

/-! ## Histories -/

namespace Collected

variable {c : Category}

theorem fields_add (before : Collected) (d : Declared) : (before.add d).schema.fields c =
    ((d.list? c).getD (before.schema.fields c ++ (d.field? c).toList)) := by
  cases d with
  | field own f => cases own <;> cases c <;> simp [add, schema, Schema.fields, Declared.list?, Declared.field?]
  | strategy v parameters factors =>
    cases c with
    | parameter => cases parameters <;> simp [add, schema, Schema.fields, Declared.list?, Declared.field?]
    | factor => cases factors <;> simp [add, schema, Schema.fields, Declared.list?, Declared.field?]

theorem registered_add (before : Collected) (d : Declared) :
    (before.add d).registered = d.export?.or before.registered := by
  cases d with
  | field own f => cases own <;> rfl
  | strategy v parameters factors => rfl

theorem ofEffects_snoc (ds : List Declared) (d : Declared) : ofEffects (ds ++ [d]) = (ofEffects ds).add d := by
  rw [ofEffects, List.foldl_append]
  rfl

end Collected

/-- What completed calls tell of what has been collected. -/
structure History (x : Fixtures) (log : List Completed) (collected : Collected) : Prop where
  /-- A call that has answered has declared what its arguments say, one that has failed nothing. -/
  right : ∀ e ∈ log, e.Right x
  lists : ∀ c, ListHistory c log (collected.schema.fields c)
  registered : collected.registered = (log.filterMap Completed.export?).getLast?

/-- The history of what some completed calls have declared between them. -/
theorem history_of_log {x : Fixtures} {log : List Completed} (hright : ∀ e ∈ log, e.Right x) :
    History x log (.ofEffects (log.flatMap Completed.declared)) := by
  induction log using List.reverseRecOn with
  | nil =>
    refine ⟨hright, fun c => ?_, rfl⟩
    cases c <;> exact .fresh (by simp)
  | append_singleton log e ih =>
    have hlog := ih fun e' he' => hright e' (List.mem_append_left _ he')
    have he := hright e (by simp)
    have hregistered :
        (log ++ [e]).filterMap Completed.export? = log.filterMap Completed.export? ++ e.export?.toList := by
      rw [List.filterMap_append, List.filterMap_cons]
      cases e.export? <;> rfl
    rw [List.flatMap_append, List.flatMap_singleton]
    cases he with
    | @answered c args vs h d hd =>
      rw [Collected.ofEffects_snoc]
      refine ⟨hright, fun category => ?_, ?_⟩
      · rw [Collected.fields_add]
        exact (hlog.lists category).snoc ⟨c, args, h, some vs, [d]⟩
      · rw [Collected.registered_add, hregistered, List.getLast?_append, hlog.registered]
        cases hexport : d.export? <;> simp [Completed.export?, hexport]
    | failed c args h =>
      rw [List.append_nil]
      refine ⟨hright, fun category => ?_, ?_⟩
      · have hsame := (hlog.lists category).snoc ⟨c, args, h, none, []⟩
        simpa [Completed.list?, Completed.field?] using hsame
      · rw [hregistered, hlog.registered]
        simp [Completed.export?]

theorem Session.Sound.history {x : Fixtures} {s : Session} (hs : s.Sound x) (hscript : s.ScriptRuns) :
    History x s.log s.collected := by
  rw [Session.collected, hs.effects_of_scriptRuns hscript]
  exact history_of_log hs.log

/-- However calls are nested, and whichever of them fail: while the script runs, what has been collected is told by
the calls that have come to their ends, in that order. And at every moment of a script the machine that runs it is
where such a session is, and has collected the same. -/
theorem collected_is_history :
    (∀ (x : Fixtures) (session : Session), session.Reach x → session.ScriptRuns →
      History x session.log session.collected) ∧
    ∀ (u : Conditions) (s : SandboxSettings) (c : CompiledScript) (stage : Machine Declared), Stage u s c stage →
      ∀ n : Nat, ∃ session : Session, session.Reach (prepared u s).fixtures ∧
        Follows (stage.after (builtins u s) n) session ∧
        session.collected = collected (stage.after (builtins u s) n) := by
  constructor
  · intro x session hreach hscript
    exact hreach.sound.history hscript
  · intro u s c stage hstage n
    obtain ⟨session, hreach, hm⟩ := hstage.exists_session n
    exact ⟨session, hreach, hm, hm.collected_eq.symm⟩

/-- A strategy whose table declares a factor for each list that it is asked for; then one with a list of parameters, but
a factor that is none. -/
def interruptedStrategies : String :=
  "parameter.number('window')\n" ++
  "define_strategy(setmetatable(\x7b\x7d, \x7b__index = function(_, k) factor.boolean(k) end\x7d))\n" ++
  "define_strategy(\x7bparameters = \x7b\x7d, factors = \x7b0\x7d\x7d)"

/-- The script that declares them. -/
def interruptedScript : CompiledScript := ⟨Source.chunkName, interruptedStrategies⟩

/-- The machine that has run it to the end. -/
def interruptedMachine : Machine Declared :=
  (machineOf interruptedStrategies).run (builtins .ofTools {}) (stepLimit {} Conditions.ofTools.steps)

set_option maxRecDepth 100000 in
/-- The factors that interrupted the first strategy stay, and nothing is there of the second one. -/
theorem interrupted_strategies_have_history :
    Stage .ofTools {} interruptedScript (machineOf interruptedStrategies) ∧
      ∃ session : Session, session.Reach (prepared .ofTools {}).fixtures ∧ session.ScriptRuns ∧
        session.collected.registered.isSome ∧ session.collected.parameters.map Field.key = ["window"] ∧
        session.collected.factors.map Field.key = ["parameters", "factors"] ∧
        History (prepared .ofTools {}).fixtures session.log session.collected := by
  obtain ⟨hend, hregistered, hparameters, hfactors⟩ : interruptedMachine.outcome?.isSome = true ∧
      (collected interruptedMachine).registered.isSome = true ∧
      (collected interruptedMachine).parameters.map Field.key = ["window"] ∧
      (collected interruptedMachine).factors.map Field.key = ["parameters", "factors"] := by decide +kernel
  have hstage : Stage .ofTools {} interruptedScript (machineOf interruptedStrategies) :=
    .script (load_eq_loaded (by decide +kernel))
  obtain ⟨k, hk⟩ := Machine.run_eq_after (builtins .ofTools {}) (stepLimit {} Conditions.ofTools.steps)
    (machineOf interruptedStrategies)
  obtain ⟨session, hreach, hm, hcollected⟩ := collected_is_history.2 .ofTools {} interruptedScript _ hstage k
  rw [← hk] at hm hcollected
  have hscript : session.ScriptRuns := by
    have hnone : session.underway = [] := hm.underway_of_outcome hend
    simp [Session.ScriptRuns, hnone]
  refine ⟨hstage, session, hreach, hscript, ?_, ?_, ?_, collected_is_history.1 _ session hreach hscript⟩
  · rw [hcollected]
    exact hregistered
  · rw [hcollected]
    exact hparameters
  · rw [hcollected]
    exact hfactors

/-- The schema of a script that is accepted is told by the calls of the script. -/
theorem accepted_schema_has_history {u : Conditions} {compiler : Compiler} {s : SandboxSettings} {source : String}
    {schema : Schema} (h : executeUnder u compiler s source = .ok schema) :
    ∃ log collected, History (prepared u s).fixtures log collected ∧ collected.schema = schema := by
  obtain ⟨session, hreach, hnone, hschema⟩ := session_of_accepted h
  have hscript : session.ScriptRuns := by simp [Session.ScriptRuns, hnone]
  exact ⟨session.log, session.collected, hreach.sound.history hscript, hschema⟩

end StrategyBench.Sandbox
