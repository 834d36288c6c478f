/-
StrategyBench.Sandbox.Guard — library functions that could go on for too long, and what keeps them
from it.

A guard looks at the arguments and either refuses the call, answers by itself, or hands the
arguments over as they are.
-/

import StrategyBench.Lua.Program
import StrategyBench.Sandbox.PatternCost

namespace StrategyBench.Sandbox

open Lua

/-- The functions that are guarded. -/
inductive Guard
  | find | match_ | gmatch | gsub | rep | move | setmetatable
  deriving DecidableEq, Repr

namespace Guard

/-- The function that a guard stands before. -/
def guarded : Guard → Builtin
  | find => .find
  | match_ => .match_
  | gmatch => .gmatch
  | gsub => .gsub
  | rep => .rep
  | move => .move
  | setmetatable => .setmetatable

/-! ## What a guard makes of a call -/

inductive Verdict
  | refused (text : String)
  | answered (results : List Value)
  /-- The arguments for the guarded function. -/
  | handedOver (args : List Value)
  deriving Inhabited

/-- The bytes of a string, or of a number written out in full. -/
def textOf : Value → Option ByteArray
  | .str s => some s
  | .int i => some (Bytes.ofString (toString i.toInt))
  | .float x => some (Bytes.ofString (Decimal.plain.write x))
  | _ => none

/-- An integer, or a finite float without its fraction, within 64 bits. -/
def integerOf : Value → Option Int
  | .int i => some i.toInt
  | .float x => x.truncate?.map fun i => max Numeral.minInt (min Numeral.maxInt i)
  | _ => none

/-- A search without patterns is asked for. -/
def isPlain (g : Guard) (args : List Value) : Bool :=
  g = find && (args.getD 3 .nil).truthy

def judgePattern (g : Guard) (args : List Value) : Verdict :=
  if g.isPlain args then .handedOver args
  else
    match args[0]?.bind textOf, args[1]?.bind textOf with
    | some subject, some pattern =>
      match PatternCost.refusal? subject.size pattern.toList with
      | some text => .refused text
      | none => .handedOver args
    | _, _ => .handedOver args

/-- Nothing repeated any number of times is nothing. -/
def judgeRep (args : List Value) : Verdict :=
  let separator := ((args[2]?.bind textOf).map ByteArray.size).getD 0
  match (args[0]?.bind textOf).map ByteArray.size, args[1]?.bind integerOf with
  | some unit, some _ =>
    if unit + separator = 0 then .answered [.str ByteArray.empty] else .handedOver args
  | _, _ => .handedOver args

def judgeMove (args : List Value) : Verdict :=
  match args[1]?.bind integerOf, args[2]?.bind integerOf with
  | some first, some last =>
    let span := Double.ofInt (last - first + 1)
    if first ≤ last && (Double.ofNat PatternCost.maxSteps).lt span then
      .refused ("table.move 區間過大: " ++ Decimal.plain.write span ++ " 個元素")
    else .handedOver args
  | _, _ => .handedOver args

/-- What a table that is to be a metatable has under `__gc`. -/
def finalizerRefusal : String := "沙箱內不允許設定 __gc 終結器"

/-- Judges by the arguments alone; `finalizer` is the finalizer of a metatable among them. -/
def judge (g : Guard) (args : List Value) (finalizer : Value) : Verdict :=
  match g with
  | find | match_ | gmatch | gsub => g.judgePattern args
  | rep => judgeRep args
  | move => judgeMove args
  | setmetatable =>
    if finalizer.isNil then .handedOver [args.getD 0 .nil, args.getD 1 .nil]
    else .refused finalizerRefusal

/-! ## Calling -/

variable {ε : Type}

def finalizerOf (g : Guard) (args : List Value) : Program ε Value :=
  match g, args.getD 1 .nil with
  | setmetatable, .table m => Program.rawGet m (.ofString "__gc")
  | _, _ => .done .nil

/-- A guarded call. -/
def call (g : Guard) (args : List Value) : Program ε (List Value) := do
  let finalizer ← g.finalizerOf args
  match g.judge args finalizer with
  | .refused text => Program.raise (.host (.message text))
  | .answered results => return results
  | .handedOver args => Program.invoke (.native (.builtin g.guarded)) args

end Guard
end StrategyBench.Sandbox
