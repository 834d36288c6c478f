/-
StrategyBench.Lua.Machine — running a script.

A machine goes step by step until it has an answer or a fault that nothing waits for. Before a step,
if more memory is counted than there may be, it is measured what is in use.
-/

import StrategyBench.Lua.Execute

namespace StrategyBench.Lua

/-- How a script has ended. -/
inductive Outcome
  | answered (results : List Value)
  | raised (fault : Fault)
  /-- It was still running. -/
  | unfinished

namespace Machine

variable {ε : Type}

/-! ## Steps -/

/-- What runs stops for want of memory. -/
def outOfMemory (m : Machine ε) : Machine ε :=
  match m.running with
  | .script f => m.raiseIn f .memory
  | _ => m.raise .memory

def isWorking (m : Machine ε) : Bool :=
  match m.running with
  | .script _ | .program _ _ => true
  | _ => false

def outcome? (m : Machine ε) : Option Outcome :=
  match m.running, m.waiting with
  | .done results, [] => some (.answered results)
  | .failed fault, [] => some (.raised fault)
  | _, _ => none

/-- What runs goes on for a step. -/
def proceed (lib : Library ε) (m : Machine ε) : Machine ε :=
  match m.running with
  | .script f => execute lib { m with running := .done [] } f
  | .program p rest => advance lib { m with running := .done [] } p rest
  | .done results =>
    match m.waiting with
    | [] => m
    | w :: rest => resume { m with waiting := rest } w results
  | .failed fault =>
    match m.waiting with
    | [] => m
    | w :: rest => unwind { m with waiting := rest } w fault

def step (lib : Library ε) (m : Machine ε) : Machine ε :=
  if m.heap.full && m.isWorking then
    let m := m.measure lib
    if m.heap.overLimit then m.outOfMemory else m.proceed lib
  else m.proceed lib

/-- At most so many steps; the work of large steps counts too. -/
def run (lib : Library ε) : Nat → Machine ε → Machine ε
  | 0, m => m
  | fuel + 1, m =>
    if m.outcome?.isSome || fuel < m.heap.effort then m else run lib fuel (m.step lib)

def outcome (m : Machine ε) : Outcome := m.outcome?.getD .unfinished

/-- A machine that is about to call the main function of a script, whose environment is in a cell. -/
def start (heap : Heap) (chunk : Chunk) (environment : Nat) : Machine ε :=
  let main : Closure := ⟨chunk.functions.back?.getD {}, #[environment]⟩
  enter { heap := heap, chunk := chunk } main []

end Machine
end StrategyBench.Lua
