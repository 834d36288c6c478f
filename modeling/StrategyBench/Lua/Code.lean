/-
StrategyBench.Lua.Code — the instructions that a function of a script is compiled to.

An instruction names its operands where they are: a register, a cell that a register refers to (a
local variable that an inner function sees), a cell of the closure, or a constant.
-/

import StrategyBench.Lua.Value

namespace StrategyBench.Lua

abbrev Reg := Nat

inductive Operand
  | reg (r : Reg)
  | cell (r : Reg)
  | upvalue (i : Nat)
  | const (v : Value)
  deriving Inhabited

/-- A number of values, or all there are. -/
inductive Count
  | exactly (n : Nat)
  | all
  deriving DecidableEq, Repr, Inhabited

inductive Comparison
  | eq | lt | le
  deriving DecidableEq, Repr, Inhabited

/-- Registers hold the operands of a call in a row: the function, then its arguments; results take
their place. -/
inductive Instr
  | move (dst : Reg) (src : Operand)
  /-- Puts a register's value into a new cell and refers to it. -/
  | newCell (r : Reg)
  | setCell (r : Reg) (src : Operand)
  | setUpvalue (i : Nat) (src : Operand)
  | index (dst : Reg) (object key : Operand)
  | setIndex (object key value : Operand)
  /-- A member of an object, and the object as the first argument. -/
  | method (dst : Reg) (object : Operand) (name : Value)
  | newTable (dst : Reg) (dense keyed : Nat)
  | setList (table first : Reg) (count : Count) (start : Nat)
  | arith (op : ArithOp) (dst : Reg) (a b : Operand)
  | length (dst : Reg) (a : Operand)
  | not (dst : Reg) (a : Operand)
  | concat (dst first : Reg) (count : Nat)
  | jump (target : Nat)
  | test (a : Operand) (when_ : Bool) (target : Nat)
  | compare (c : Comparison) (a b : Operand) (when_ : Bool) (target : Nat)
  | call (base : Reg) (arguments results : Count)
  | tailCall (base : Reg) (arguments : Count)
  | ret (first : Reg) (count : Count)
  | varargs (dst : Reg) (count : Count)
  | closure (dst : Reg) (function : Nat)
  | forPrepare (base : Reg) (exit : Nat)
  | forStep (base : Reg) (body : Nat)
  | iterate (base : Reg) (results : Nat)
  | iterateStep (base : Reg) (body : Nat)
  /-- Makes a register's value one to be closed. -/
  | markClose (r : Reg) (value : Operand) (name : ByteArray)
  /-- Closes what is to be closed from a register on. -/
  | close (r : Reg)
  deriving Inhabited

/-! ## What messages say -/

/-- What an operand is called in a message, such as a global `x`. -/
structure Naming where
  kind : String
  name : ByteArray
  deriving Inhabited

/-- The line of an instruction, and what its operands are called. -/
structure Origin where
  line : Nat := 0
  operands : List (Option Naming) := []
  deriving Inhabited

/-! ## Functions -/

/-- Where a new closure takes a cell from. -/
inductive Capture
  | cell (r : Reg)
  | upvalue (i : Nat)
  deriving Inhabited

structure Proto where
  code : Array Instr := #[]
  origins : Array Origin := #[]
  captures : Array Capture := #[]
  parameters : Nat := 0
  isVararg : Bool := false
  registers : Nat := 2
  /-- Whether a variable of it is to be closed. -/
  closes : Bool := false
  deriving Inhabited

/-- A script: its functions, the main one last. -/
structure Chunk where
  name : ByteArray := ByteArray.empty
  functions : Array Proto := #[]
  deriving Inhabited

def Proto.originAt (p : Proto) (pc : Nat) : Origin := p.origins.getD pc {}

end StrategyBench.Lua
