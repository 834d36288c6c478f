/-
StrategyBench.Lua.Syntax — scripts as trees, with every name resolved.

A local variable is known by its number in its function, a variable of an enclosing function by its
place among the captured ones. Lines are those that messages name.
-/

import StrategyBench.Lua.Value

namespace StrategyBench.Lua

inductive BinaryOp
  | arith (op : ArithOp)
  | concat
  | eq | ne | lt | le | gt | ge
  | and | or
  deriving DecidableEq, Inhabited

inductive UnaryOp
  | neg | not | len | bnot
  deriving DecidableEq, Inhabited

/-- How a local variable may be used. -/
inductive Usage
  | regular
  | const
  | close
  deriving DecidableEq, Repr, Inhabited

structure LocalVariable where
  name : ByteArray
  usage : Usage := .regular
  /-- A variable that stands for a constant takes no room. -/
  constant : Option Value := none
  /-- An inner function sees it. -/
  captured : Bool := false
  deriving Inhabited

/-- What a function takes from the function around it. -/
inductive Outer
  | var (id : Nat)
  | upvalue (i : Nat)
  deriving Inhabited

structure UpvalueInfo where
  name : ByteArray
  source : Outer
  usage : Usage := .regular
  deriving Inhabited

mutual
inductive Expr
  | const (v : Value)
  /-- A variable that stands for a constant. -/
  | named (name : ByteArray) (v : Value)
  | var (id : Nat) (name : ByteArray)
  | upvalue (i : Nat) (name : ByteArray)
  | varargs
  /-- A line of zero: not read yet. -/
  | index (object key : Expr) (line : Nat)
  | call (f : Expr) (arguments : List Expr) (line : Nat)
  | method (object : Expr) (name : ByteArray) (arguments : List Expr) (selfLine line : Nat)
  | function (body : Function)
  | binary (op : BinaryOp) (a b : Expr) (line : Nat)
  | unary (op : UnaryOp) (a : Expr) (line : Nat)
  | table (items : List Item) (line : Nat)
  | paren (e : Expr)

inductive Item
  | positional (e : Expr)
  | keyed (key value : Expr) (line : Nat)

inductive Stat
  /-- Local variables; which of them is to be closed. -/
  | locals (ids : List Nat) (values : List Expr) (close : Option Nat) (line : Nat)
  | assign (targets values : List Expr) (line : Nat)
  | call (e : Expr)
  | block (body : List Stat)
  | whileLoop (condition : Expr) (body : List Stat)
  | repeatLoop (body : List Stat) (condition : Expr)
  | choice (branches : List Branch) (otherwise : List Stat)
  | numericFor (id : Nat) (start stop step : Expr) (body : List Stat) (doLine line : Nat)
  | genericFor (ids : List Nat) (values : List Expr) (body : List Stat) (doLine line : Nat)
  | localFunction (id : Nat) (body : Function) (line : Nat)
  | ret (values : List Expr) (tail : Bool) (line : Nat)
  /-- A jump, by the number of the jump; a label, by its own. -/
  | goto (id : Nat)
  | label (id : Nat)

inductive Branch
  | mk (condition : Expr) (body : List Stat)

/-- A function: its own variables, what it captures, and its body. -/
inductive Function
  | mk (parameters : List Nat) (isVararg : Bool) (locals : Array LocalVariable)
      (upvalues : Array UpvalueInfo) (gotos : Array Nat) (labelLevels : Array Nat)
      (body : List Stat) (endLine : Nat)
end

instance : Inhabited Expr := ⟨.varargs⟩
instance : Inhabited Function := ⟨.mk [] false #[] #[] #[] #[] [] 0⟩

namespace Expr

/-- Whether an expression gives any number of values. -/
def isMulti : Expr → Bool
  | call .. | method .. | varargs => true
  | _ => false

def constant? : Expr → Option Value
  | const v | named _ v => some v
  | _ => none

end Expr
end StrategyBench.Lua
