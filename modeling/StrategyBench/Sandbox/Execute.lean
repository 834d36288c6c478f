/-
StrategyBench.Sandbox.Execute — running a script for the schema that it declares.

A source is compiled, run in an environment of its own until it ends or its time is up, its export
is checked, and the keys of what it declared have to be distinct.
-/

import StrategyBench.Sandbox.Environment
import StrategyBench.Sandbox.Source
import StrategyBench.Settings.Sections
import StrategyBench.Lua.Compile

namespace StrategyBench.Sandbox

open Lua

/-! ## Conditions -/

/-- What a run depends on that no setting tells: how fast the host is, and the seed it chooses. The time
that a step takes is not known, so a number of steps stands for the time. -/
structure Conditions where
  /-- How many steps of the script there is time for. -/
  steps : Nat
  /-- How many there is time for when its export is looked at after that. -/
  exportSteps : Nat
  seed : Environment.Seed

/-- How many of the steps that there is time for are taken. Without any time there are none, and with
none but the grace the script is stopped when the clock is first looked at. -/
def stepLimit (s : SandboxSettings) (steps : Nat) : Nat :=
  if s.timeoutMs + s.graceMs = 0 then 0
  else if s.timeoutMs = 0 then min s.interval steps
  else steps

/-! ## Outcomes -/

/-- What a fault that nothing held is to the caller. -/
def rejectionOf : Fault → Rejection
  | .text s => .runtime (Bytes.toText s)
  | .host (.refusedModule name) => .disallowedModule name
  | .host (.message text) => .runtime text
  | .memory => .runtime ("記憶體超出上限: " ++ Fault.memoryText)

/-- The results of a machine that has run, unless it failed or still runs. -/
def resultsOf (s : SandboxSettings) (m : Machine Declared) : Except Rejection (List Value) :=
  match m.outcome with
  | .answered results => .ok results
  | .raised fault => .error (rejectionOf fault)
  | .unfinished => .error (.timeout s.timeoutMs)

def collected (m : Machine Declared) : Collected := .ofEffects m.effects.reverse

/-! ## The export -/

namespace Contract

def noExport : Rejection := .contractViolation "腳本沒有匯出值，請回傳或以 define_strategy 註冊策略"

def noTable (v : Value) : Rejection :=
  .contractViolation ("匯出值必須是表，實際為 " ++ v.hostTypeName)

/-- Whether what stands under `run` can be run. -/
def checkRun : Value → Except Rejection Unit
  | .closure _ | .native _ => .ok ()
  | .nil => .error (.contractViolation "匯出值缺少 run 函數")
  | v => .error (.contractViolation ("run 必須是函數，實際為 " ++ v.hostTypeName))

/-- What a script exports: what it returns, or else what it registered. -/
def exported (results : List Value) (registered : Option Value) : Value :=
  match results.headD .nil with
  | .nil => registered.getD .nil
  | v => v

end Contract

/-- Reads the `run` of an export. -/
def readRun (export_ : Nat) : Declaring (List Value) := do
  return [← Operation.index (.table export_) (.ofString "run")]

/-- Checks the export of a script that has ended, for which there is time for some steps; answers the
machine after that. -/
def checkExport (s : SandboxSettings) (steps : Nat) (lib : Library Declared) (m : Machine Declared)
    (results : List Value) : Except Rejection (Machine Declared) :=
  match Contract.exported results (collected m).registered with
  | .nil => .error Contract.noExport
  | .table t => do
    let m := { m with running := .program .operation (readRun t) }.run lib (stepLimit s steps)
    Contract.checkRun ((← resultsOf s m).headD .nil)
    return m
  | v => .error (Contract.noTable v)

/-! ## Scripts -/

/-- A script ready to run, or why it cannot be. -/
def load (c : CompiledScript) : Except Rejection Chunk :=
  match c.chunkName.toUTF8.toList.findIdx? (· == 0) with
  | some i =>
    .error (.runtime ("invalid name: nul byte found in provided data at position: " ++ toString i))
  | none =>
    let name := Bytes.ofString c.chunkName
    match Source.tree name (Bytes.ofString c.code) with
    | .ok f => .ok (Chunk.ofFunction name f)
    | .error (.malformed text) => .error (.runtime ("syntax error: " ++ Bytes.toText text))
    | .error .tooDeep => .error (.runtime Source.tooDeepText)

/-- Runs a script; the schema may have repeated keys. -/
def runScript (u : Conditions) (s : SandboxSettings) (c : CompiledScript) : Except Rejection Schema := do
  if stepLimit s u.steps = 0 then throw (.timeout s.timeoutMs)
  let chunk ← load c
  let p := Environment.prepare u.seed s.memoryLimitBytes
  let lib := Environment.library p.fixtures p.cell
  let m := (Machine.start p.heap chunk p.cell).run lib (stepLimit s u.steps)
  let results ← resultsOf s m
  let m ← checkExport s u.exportSteps lib m results
  return (collected m).schema

/-- Refuses a schema in which a key stands twice. -/
def distinctKeys (schema : Schema) : Except Rejection Schema :=
  match schema.repeatedKey? with
  | some (c, key) => .error (.duplicateKey c.plural key)
  | none => .ok schema

/-- Compiles and runs a source. -/
def executeUnder (u : Conditions) (compiler : Compiler) (s : SandboxSettings) (source : String) :
    Except Rejection Schema := do
  match compiler source with
  | .error fault => .error (.compile fault.text)
  | .ok c => distinctKeys (← runScript u s c)

/-- The conditions of the tools, in place of a clock and a choice. -/
def Conditions.ofTools : Conditions where
  steps := 48000000
  exportSteps := 48000000
  seed := ⟨0x2545F491, 0⟩

def executeWith (compiler : Compiler) (s : SandboxSettings) (source : String) : Except Rejection Schema :=
  executeUnder .ofTools compiler s source

def execute (s : SandboxSettings) (source : String) : Except Rejection Schema :=
  executeWith Source.compile s source

end StrategyBench.Sandbox
