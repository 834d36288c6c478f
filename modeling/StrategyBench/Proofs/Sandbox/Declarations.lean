/-
StrategyBench.Proofs.Sandbox.Declarations — what a script can have declared when it is accepted.

The only programs that declare anything are those of the builders and of `define_strategy`, and they
declare what a declaration was brought to (`emits_run`). Reading values of the script may call its
functions, and those may declare fields in turn, but a program is judged for all answers that it can
get, so what is emitted is canonical however runs are nested (`Machine.Sound.run`). The keys are
compared at the end, over all that was collected (`accepted_schema_is_canonical`).
-/

import StrategyBench.Proofs.Decisions
import StrategyBench.Proofs.Field.Canonical
import StrategyBench.Proofs.Lua.Steps
import StrategyBench.Sandbox.Execute

namespace StrategyBench.Sandbox

open Lua Program

/-! ## Reading and making values -/

namespace Exchange

variable {ε : Type} {P : ε → Prop}

theorem emits_isArray (arrayMeta t : Nat) : (isArray arrayMeta t : Program ε Bool).Emits P := by
  refine Emits.bind (emits_border _) fun n => ?_
  split
  · trivial
  · exact Emits.bind (emits_metatable? _) fun _ => trivial

theorem emits_keyName (arrayMeta : Nat) (key : Value) : (keyName arrayMeta key : Program ε String).Emits P := by
  unfold keyName
  split
  case h_4 => exact Emits.bind (emits_isArray _ _) fun _ => trivial
  all_goals trivial

theorem emits_keyText (arrayMeta : Nat) (key : Value) : (keyText arrayMeta key : Program ε String).Emits P := by
  have hwrong : Program.Emits (ε := ε) P (do
      malformed (α := String) ("invalid type: " ++ (← keyName arrayMeta key) ++ ", expected a string key")) :=
    Emits.bind (emits_keyName _ _) fun _ => trivial
  unfold keyText
  split
  · split
    · trivial
    · exact hwrong
  · exact hwrong

theorem emits_unvisited (visited : List Nat) (v : Value) : (unvisited visited v : Program ε Unit).Emits P := by
  unfold unvisited
  split
  · split <;> trivial
  · trivial

theorem emits_elements {read : Value → Program ε Json} (hread : ∀ v, (read v).Emits P)
    (visited : List Nat) (t : Nat) (acc : List Json) (i : Int64) (n : Nat) :
    (elements read visited t acc i n).Emits P := by
  induction n generalizing acc i with
  | zero => trivial
  | succ n ih =>
    refine Emits.bind (emits_rawGet _ _) fun v => ?_
    split
    · trivial
    · refine Emits.bind (emits_unvisited _ _) fun _ => ?_
      split
      · exact ih _ _
      · exact Emits.bind (hread v) fun _ => ih _ _

theorem emits_members (arrayMeta : Nat) {read : Value → Program ε Json} (hread : ∀ v, (read v).Emits P)
    (visited : List Nat) (t : Nat) (acc : List (String × Json)) (key : Value) (n : Nat) :
    (members arrayMeta read visited t acc key n).Emits P := by
  induction n generalizing acc key with
  | zero => trivial
  | succ n ih =>
    refine Emits.bind (emits_op _) fun key => ?_
    split
    · trivial
    · refine Emits.bind (emits_rawGet _ _) fun v => ?_
      refine Emits.bind (emits_unvisited _ _) fun _ => ?_
      refine Emits.bind (emits_unvisited _ _) fun _ => ?_
      split
      · exact ih _ _
      · refine Emits.bind (emits_keyText _ _) fun name => ?_
        exact Emits.bind (hread v) fun _ => ih _ _

theorem emits_toJson (arrayMeta depth : Nat) (visited : List Nat) (v : Value) :
    (toJson arrayMeta depth visited v : Program ε Json).Emits P := by
  induction depth generalizing visited v with
  | zero => trivial
  | succ depth ih =>
    unfold toJson
    cases v with
    | str s => dsimp only; split <;> trivial
    | table t =>
      refine Emits.bind (emits_isArray _ _) fun isArray => ?_
      split
      · exact Emits.bind (emits_elements (ih _) _ _ _ _ _) fun _ => trivial
      · exact Emits.bind (emits_members _ (ih _) _ _ _ _ _) fun _ => trivial
    | _ => trivial

theorem emits_read (arrayMeta : Nat) (v : Value) : (read arrayMeta v : Program ε Json).Emits P :=
  Emits.bind emits_tableCount fun _ => emits_toJson _ _ _ _

mutual
theorem emits_ofJson (arrayMeta : Nat) (j : Json) : (ofJson arrayMeta j : Program ε Value).Emits P := by
  cases j with
  | str s => exact Emits.bind (emits_reserve _) fun _ => trivial
  | arr js =>
    refine Emits.bind (emits_newTable _ _) fun t => ?_
    refine Emits.bind (emits_fillElements arrayMeta t 1 js) fun _ => ?_
    exact Emits.bind (emits_op _) fun _ => trivial
  | obj ms =>
    refine Emits.bind (emits_newTable _ _) fun t => ?_
    exact Emits.bind (emits_fillMembers arrayMeta t ms) fun _ => trivial
  | _ => trivial

theorem emits_fillElements (arrayMeta t : Nat) (i : Int64) (js : List Json) :
    (fillElements arrayMeta t i js : Program ε Unit).Emits P := by
  cases js with
  | nil => trivial
  | cons j js =>
    refine Emits.bind (emits_ofJson arrayMeta j) fun v => ?_
    exact Emits.bind (emits_rawSet _ _ _) fun _ => emits_fillElements arrayMeta t (i + 1) js

theorem emits_fillMembers (arrayMeta t : Nat) (ms : List (String × Json)) :
    (fillMembers arrayMeta t ms : Program ε Unit).Emits P := by
  cases ms with
  | nil => trivial
  | cons m ms =>
    refine Emits.bind (emits_ofJson arrayMeta m.2) fun v => ?_
    exact Emits.bind (emits_rawSet _ _ _) fun _ => emits_fillMembers arrayMeta t ms
end

theorem emits_ofField (arrayMeta : Nat) (f : Field) : (ofField arrayMeta f : Program ε Value).Emits P :=
  emits_ofJson _ _

end Exchange

theorem Guard.emits_call {ε : Type} {P : ε → Prop} (g : Guard) (args : List Value) :
    (g.call args : Program ε (List Value)).Emits P := by
  have hfinalizer : (g.finalizerOf args : Program ε Value).Emits P := by
    unfold Guard.finalizerOf
    split
    · exact emits_rawGet _ _
    · trivial
  refine Emits.bind hfinalizer fun finalizer => ?_
  split
  · trivial
  · trivial
  · exact emits_invoke _ _

/-! ## Declaring -/

/-- All fields of a declaration are canonical. -/
def Declared.Canonical : Declared → Prop
  | .field _ f => f.Canonical
  | .strategy _ parameters factors =>
    (∀ fs ∈ parameters, ∀ f ∈ fs, f.Canonical) ∧ ∀ fs ∈ factors, ∀ f ∈ fs, f.Canonical

namespace Capability

open Exchange
open Text (Tidy)

theorem obeys_normalized {P : Declared → Prop} (raw : Json) (c : Category) {kind : String} (hkind : Tidy kind) :
    (normalized raw c kind).Obeys P Field.Canonical := by
  unfold normalized
  split
  · rename_i f hf
    exact Declaration.canonical_of_normalize hkind hf
  · trivial

-- what a text is brought to is of no matter below, and takes long to unfold
attribute [local irreducible] normalized

theorem emits_build (x : Fixtures) (c : Category) {kind : String} (hkind : Tidy kind) (args : List Value) :
    (build x c kind args).Emits Declared.Canonical := by
  unfold build
  extract_lets reads
  have hreads (options : Json) : (reads options).Emits Declared.Canonical := by
    unfold reads
    extract_lets declares
    have hdeclares (key : Option Json) : (declares key).Emits Declared.Canonical := by
      refine Obeys.bind (obeys_normalized _ _ hkind) fun f hf => ?_
      refine Emits.bind (emits_ofField _ _) fun shown => ?_
      exact ⟨hf, fun _ => trivial⟩
    split
    · exact hdeclares none
    · exact Emits.bind (Emits.map (emits_read _ _) some) hdeclares
  split
  · exact Emits.bind (emits_read _ _) hreads
  · exact hreads .null

theorem obeys_entriesFrom {P : Declared → Prop} (x : Fixtures) (c : Category) {kind : String}
    (hkind : Tidy kind) (t : Nat) (acc : List Field) (hacc : ∀ f ∈ acc, f.Canonical) (i : Int64) (n : Nat) :
    (entriesFrom x c kind t acc i n).Obeys P fun fs => ∀ f ∈ fs, f.Canonical := by
  induction n generalizing acc i with
  | zero => exact fun f hf => hacc f (List.mem_reverse.mp hf)
  | succ n ih =>
    refine Emits.bind (emits_rawGet _ _) fun v => ?_
    split
    · exact fun f hf => hacc f (List.mem_reverse.mp hf)
    · refine Emits.bind (emits_read _ _) fun raw => ?_
      refine Obeys.bind (obeys_normalized _ _ hkind) fun f hf => ?_
      refine ih _ (fun g hg => ?_) _
      rcases List.mem_cons.mp hg with rfl | hg
      · exact hf
      · exact hacc g hg

theorem tidy_entryKind (c : Category) : Tidy (entryKind c) := by
  cases c <;> decide

theorem obeys_entries {P : Declared → Prop} (x : Fixtures) (t : Nat) (c : Category) :
    (entries x t c).Obeys P fun fields => ∀ fs ∈ fields, ∀ f ∈ fs, f.Canonical := by
  refine Emits.bind (Operation.emits_index _ _) fun v => ?_
  split
  · intro fs hfs
    cases hfs
  · refine Obeys.bind (obeys_entriesFrom x c (tidy_entryKind c) _ [] (by simp) _ _) fun fs hall => ?_
    intro gs hgs
    obtain rfl := Option.some.inj hgs
    exact hall
  · trivial

theorem emits_define (x : Fixtures) (args : List Value) : (define x args).Emits Declared.Canonical := by
  unfold define
  dsimp only
  split
  · refine Obeys.bind (obeys_entries x _ _) fun parameters hparameters => ?_
    refine Obeys.bind (obeys_entries x _ _) fun factors hfactors => ?_
    exact ⟨⟨hparameters, hfactors⟩, fun _ => trivial⟩
  · exact ⟨⟨nofun, nofun⟩, fun _ => trivial⟩

theorem emits_requireModule (x : Fixtures) (args : List Value) {P : Declared → Prop} :
    (requireModule x args).Emits P := by
  unfold requireModule
  dsimp only
  split
  · trivial
  · split
    · trivial
    · split <;> trivial

/-- A builder stands for a kind that has a name. -/
def KindTidy : Capability → Prop
  | builder _ kind => Tidy kind
  | _ => True

instance (c : Capability) : Decidable c.KindTidy := by
  cases c <;> unfold KindTidy <;> infer_instance

/-- Whatever a capability does, the fields that it declares are canonical. -/
theorem emits_run (x : Fixtures) {c : Capability} (hc : c.KindTidy) (args : List Value) :
    (c.run x args).Emits Declared.Canonical := by
  cases c with
  | builder c kind => exact emits_build x c hc args
  | defineStrategy => exact emits_define x args
  | require => exact emits_requireModule x args
  | guard g => exact g.emits_call args
  | _ => trivial

theorem kindTidy_of_named {n : String} {c : Capability} (h : named n = some c) : c.KindTidy := by
  have hall : ∀ c ∈ all, c.KindTidy := by decide
  exact hall c (List.mem_of_find?_eq_some h)

end Capability

theorem Environment.emits_library (x : Fixtures) (cell : Nat) (g : Native) (args : List Value) :
    ((library x cell).run g args).Emits Declared.Canonical := by
  cases g with
  | host name =>
    cases hnamed : Capability.named name with
    | none => simp [library, hnamed, Program.Obeys]
    | some c =>
      simp only [library, hnamed]
      exact Capability.emits_run x (Capability.kindTidy_of_named hnamed) args
  | _ => exact emits_lift _

/-! ## What has been declared -/

namespace Collected

/-- All fields that have been collected are canonical. -/
def Canonical (c : Collected) : Prop := ∀ category, ∀ f ∈ c.schema.fields category, f.Canonical

theorem canonical_add {c : Collected} {e : Declared} (hc : c.Canonical) (he : e.Canonical) :
    (c.add e).Canonical := by
  intro category f hf
  cases e with
  | field own g =>
    cases own <;> cases category <;>
      simp only [add, schema, Schema.fields, List.mem_append, List.mem_singleton] at hf
    · exact hf.elim (hc .parameter f) fun h => h ▸ he
    · exact hc .factor f hf
    · exact hc .parameter f hf
    · exact hf.elim (hc .factor f) fun h => h ▸ he
  | strategy v parameters factors =>
    cases category with
    | parameter =>
      cases parameters with
      | none => exact hc .parameter f hf
      | some fs => exact he.1 fs rfl f hf
    | factor =>
      cases factors with
      | none => exact hc .factor f hf
      | some fs => exact he.2 fs rfl f hf

theorem canonical_ofEffects {effects : List Declared} (h : ∀ e ∈ effects, e.Canonical) :
    (ofEffects effects).Canonical := by
  have hfold (c : Collected) (hc : c.Canonical) : (effects.foldl add c).Canonical := by
    induction effects generalizing c with
    | nil => exact hc
    | cons e effects ih =>
      exact ih (fun e he => h e (List.mem_cons_of_mem _ he)) _ (canonical_add hc (h e List.mem_cons_self))
  exact hfold {} (by intro category; cases category <;> simp [schema, Schema.fields])

end Collected

/-! ## Accepted scripts -/

theorem canonical_of_sound {m : Machine Declared} (h : m.Sound Declared.Canonical) :
    (collected m).Canonical :=
  Collected.canonical_ofEffects fun e he => h.effects e (List.mem_reverse.mp he)

/-- A look at `run` in an export may call the script again; what it declares then is canonical too. -/
theorem sound_of_checkExport {s : SandboxSettings} {x : Fixtures} {cell : Nat} {m m' : Machine Declared}
    {steps : Nat} {results : List Value} (hm : m.Sound Declared.Canonical)
    (h : checkExport s steps (Environment.library x cell) m results = .ok m') : m'.Sound Declared.Canonical := by
  unfold checkExport at h
  split at h
  · cases h
  · rename_i t _
    have hrunning : (Running.program .operation (readRun t)).Emits Declared.Canonical :=
      Emits.bind (Operation.emits_index _ _) fun _ => trivial
    have hend := Machine.Sound.run (Environment.emits_library x cell)
      (m := { m with running := .program .operation (readRun t) }) ⟨hrunning, hm.waiting, hm.effects⟩
      (stepLimit s steps)
    obtain ⟨found, -, h⟩ := bind_eq_ok h
    obtain ⟨-, -, h⟩ := bind_eq_ok h
    obtain rfl := Except.ok.inj h
    exact hend
  · cases h

theorem canonical_of_runScript {u : Conditions} {s : SandboxSettings} {c : CompiledScript} {schema : Schema}
    (h : runScript u s c = .ok schema) : ∀ category, ∀ f ∈ schema.fields category, f.Canonical := by
  unfold runScript at h
  split at h
  · cases h
  · obtain ⟨chunk, -, h⟩ := bind_eq_ok h
    obtain ⟨results, -, h⟩ := bind_eq_ok h
    obtain ⟨last, hcheck, h⟩ := bind_eq_ok h
    obtain rfl := Except.ok.inj h
    refine canonical_of_sound (sound_of_checkExport ?_ hcheck)
    exact (Machine.sound_start _ chunk _).run (Environment.emits_library _ _) (stepLimit s u.steps)

theorem distinctKeys_eq_ok {schema accepted : Schema} (h : distinctKeys schema = .ok accepted) :
    schema = accepted ∧ schema.repeatedKey? = none := by
  unfold distinctKeys at h
  split at h
  · cases h
  · rename_i hkeys
    exact ⟨Except.ok.inj h, hkeys⟩

/-- When a script is accepted, whatever it did, the keys of each of its lists are distinct, and all of
its fields are canonical. -/
theorem accepted_schema_is_canonical {u : Conditions} {compiler : Compiler} {s : SandboxSettings} {source : String}
    {schema : Schema} (h : executeUnder u compiler s source = .ok schema) (category : Category) :
    ((schema.fields category).map Field.key).Nodup ∧ ∀ f ∈ schema.fields category, f.Canonical := by
  unfold executeUnder at h
  split at h
  · cases h
  · obtain ⟨collected, hscript, h⟩ := bind_eq_ok h
    obtain ⟨rfl, hkeys⟩ := distinctKeys_eq_ok h
    exact ⟨Schema.nodup_keys hkeys category, canonical_of_runScript hscript category⟩

/-- A parameter is declared; then the registered table declares a factor for each list that it is asked for. -/
def reentrantStrategy : String :=
  "parameter.number(' window ')\n" ++
  "define_strategy(setmetatable(\x7b\x7d, \x7b__index = function(_, k) factor.boolean(k) end\x7d))\n" ++
  "return \x7brun = print\x7d"

set_option maxRecDepth 100000 in
theorem reentrant_strategy_is_canonical :
    ∃ schema, execute {} reentrantStrategy = .ok schema ∧
      schema.parameters.map Field.key = ["window"] ∧ schema.factors.map Field.key = ["parameters", "factors"] ∧
      ∀ category, ((schema.fields category).map Field.key).Nodup ∧ ∀ f ∈ schema.fields category, f.Canonical := by
  have hkeys : (execute {} reentrantStrategy).toOption.map
      (fun schema => (schema.parameters.map Field.key, schema.factors.map Field.key)) =
        some (["window"], ["parameters", "factors"]) := by decide +kernel
  obtain ⟨schema, hschema, hkeys⟩ := Option.map_eq_some_iff.mp hkeys
  rw [toOption_eq_some_iff] at hschema
  obtain ⟨hparameters, hfactors⟩ := Prod.mk.inj hkeys
  exact ⟨schema, hschema, hparameters, hfactors, accepted_schema_is_canonical hschema⟩

end StrategyBench.Sandbox
