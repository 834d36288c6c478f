/-
StrategyBench.Lua.Memory — what a machine refers to, and measuring the memory of it.

What cannot be reached is dropped, unless a program is in the middle of its work and may refer to it.
-/

import StrategyBench.Lua.Activation

namespace StrategyBench.Lua

/-- The built-in functions that a machine runs with. -/
structure Library (ε : Type) where
  run : Native → List Value → Program ε (List Value)
  /-- Values that an effect keeps in use. -/
  held : ε → List Value := fun _ => []
  /-- Values that are always in use. -/
  roots : List Value := []
  rootCells : List Nat := []
  /-- Memory that is taken before a script starts. -/
  base : Nat := 0

/-! ## Faults -/

namespace Fault

def memoryText : String := "not enough memory"

/-- What a to-be-closed variable is told. -/
def value : Fault → Value
  | text s => .str s
  | host e => .failure e
  | memory => .ofString memoryText

/-- The error that a function of the host raises instead. -/
def atHost : Fault → Fault
  | text s => host (.message (Bytes.toText s))
  | host e => host e
  | memory => host (.message ("memory error: " ++ memoryText))

/-- Where the list of running functions starts in the text of an error. -/
def traceMark : String := "\nstack traceback:"

/-- The text of an error, with the list of running functions behind it. Which functions run is not
modelled: the list is made up and always the same. -/
def traced (s : ByteArray) : Fault := text (s ++ Bytes.ofString (traceMark ++ "\n\t[C]: in ?"))

end Fault

namespace Machine

variable {ε : Type}

/-! ## What is in use -/

def frameValues (f : Frame) : List Value :=
  f.registers.toList ++ f.varargs ++ f.closing.map Prod.snd

/-- Cells that a function refers to; an integer in a register may stand for one. -/
def frameCells (f : Frame) : List Nat :=
  f.registers.foldl (fun cells v => match v with
    | .int i => i.toUInt64.toNat :: cells
    | _ => cells) f.upvalues.toList

def waitingFrame? : Waiting ε → Option Frame
  | .script f _ | .leaving f _ | .failing f _ => some f
  | .program _ _ _ => none

def frames (m : Machine ε) : List Frame :=
  let outer := m.waiting.filterMap waitingFrame?
  match m.running with
  | .script f => f :: outer
  | _ => outer

def leavingValues : Waiting ε → List Value
  | .leaving _ results => results
  | .failing _ fault => [fault.value]
  | _ => []

/-- Whether no program is in the middle of its work. -/
def isQuiet (m : Machine ε) : Bool :=
  (m.waiting.all fun w => (waitingFrame? w).isSome) &&
  match m.running with
  | .program _ _ => false
  | _ => true

/-- Measures the memory that is in use, and drops what is not if nothing else can refer to it. -/
def measure (lib : Library ε) (m : Machine ε) : Machine ε :=
  let frames := m.frames
  let values := frames.flatMap frameValues ++ m.waiting.flatMap leavingValues
    ++ m.effects.flatMap lib.held ++ lib.roots
  let cells := frames.flatMap frameCells ++ lib.rootCells
  let survey := m.heap.survey values cells (lib.base + 16 * m.stackSize)
  let heap := m.heap.measured survey
  { m with heap := if m.isQuiet then heap.dropUnreached survey else heap }

end Machine
end StrategyBench.Lua
