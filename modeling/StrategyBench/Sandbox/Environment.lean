/-
StrategyBench.Sandbox.Environment — all that a script can see.

The environment holds safe basic functions, the four safe libraries with their guards in place, and
the capabilities; nothing of it is shared between runs.
-/

import StrategyBench.Sandbox.Declare
import StrategyBench.Lua.Library.Dispatch
import StrategyBench.Lua.Machine

namespace StrategyBench.Sandbox

open Lua

namespace Environment

/-! ## Tables -/

/-- A table of some members. -/
def tableOf (members : List (String × Value)) : Table :=
  members.foldl (fun t m => t.set (.ofString m.1) m.2) {}

def install (h : Heap) (members : List (String × Value)) : Value × Heap :=
  let (id, h) := h.addTable (tableOf members)
  (.table id, h)

def idOf : Value → Nat
  | .table id => id
  | _ => 0

def builders (c : Category) (kinds : List String) : List (String × Value) :=
  kinds.map fun kind => (kind, (Capability.builder c kind).value)

/-- Puts guards in the place of what they guard. -/
def guarded (members : List (String × Value)) (guards : List (String × Guard)) :
    List (String × Value) :=
  members.map fun (name, v) =>
    match guards.lookup name with
    | some g => (name, (Capability.guard g).value)
    | none => (name, v)

def stringGuards : List (String × Guard) :=
  [("find", .find), ("match", .match_), ("gmatch", .gmatch), ("gsub", .gsub), ("rep", .rep)]

def tableGuards : List (String × Guard) := [("move", .move)]

/-! ## The environment -/

/-- A heap with an environment in it. -/
structure Prepared where
  heap : Heap
  fixtures : Fixtures
  /-- The cell that holds the environment. -/
  cell : Nat

def version : Value := .ofString "Lua 5.4"

/-- What the generator of random numbers is given at the start: two numbers of the host's choice. -/
structure Seed where
  first : Int64
  second : Int64

/-- A heap with a limit of memory, and the cells of the generator of random numbers. -/
def seeded (seed : Seed) (limit : Nat) : Heap :=
  (Library.Mathematics.firstCells seed.first seed.second).foldl (fun h v => (h.addCell v).2) (.withLimit limit)

/-- Puts all that a script can see into a heap. -/
def furnished (h : Heap) : Prepared :=
  let (arrayMeta, h) := install h [("__metatable", .bool false)]
  let (string, h) := install h (guarded Library.stringMembers stringGuards)
  let (strings, h) := install h (("__index", string) :: Library.stringMetamethods)
  let h := { h with stringMeta := some (idOf strings) }
  let (math, h) := install h Library.mathMembers
  let (table, h) := install h (guarded Library.tableMembers tableGuards)
  let (utf8, h) := install h Library.utf8Members
  let (parameter, h) := install h (builders .parameter Capability.parameterKinds)
  let (factor, h) := install h (builders .factor Capability.factorKinds)
  let (logger, h) := install h (Capability.logLevels.map fun l => (l, (Capability.logger l).value))
  let shared :=
    [("parameter", parameter), ("factor", factor), ("define_strategy", Capability.defineStrategy.value),
     ("logger", logger)]
  let (sdk, h) := install h shared
  let (env, h) := install h
    (Library.basicFunctions ++
     [("_VERSION", version), ("math", math), ("string", string), ("table", table), ("utf8", utf8),
      ("setmetatable", (Capability.guard .setmetatable).value)] ++ shared ++
     [("print", Capability.print.value), ("require", Capability.require.value)])
  let (cell, h) := h.addCell env
  { heap := h, fixtures := ⟨idOf arrayMeta, idOf sdk⟩, cell := cell }

/-- Prepares a heap with a limit of memory. -/
def prepare (seed : Seed) (limit : Nat) : Prepared := furnished (seeded seed limit)

/-- Memory that is taken before a script starts, beyond the objects of its heap. -/
def baseBytes : Nat := 29800

/-- The functions of the libraries and the capabilities. -/
def library (x : Fixtures) (cell : Nat) : Library Declared where
  run f args :=
    match f with
    | .host name =>
      match Capability.named name with
      | some c => c.run x args
      | none => .done []
    | f => (Library.runNative f args).lift
  held := Declared.values
  roots := [.table x.arrayMeta, .table x.sdk]
  rootCells := Library.Mathematics.cells ++ [cell]
  base := baseBytes

end Environment
end StrategyBench.Sandbox
