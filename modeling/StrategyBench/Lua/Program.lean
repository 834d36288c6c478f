/-
StrategyBench.Lua.Program — what a built-in function does, step by step.

A program works on the heap, calls functions of the script, and may emit effects `ε` for the host;
libraries emit none. It ends with an answer or raises an error. What an error says may depend on
where it is raised from, so a program only gives the parts (`Raise`) and the machine the words.
-/

import StrategyBench.Lua.Heap

namespace StrategyBench.Lua

/-! ## Errors -/

/-- An error that is raised. -/
inductive Raise
  /-- A bad argument, counted from one. -/
  | argument (n : Nat) (text : ByteArray)
  /-- An argument of a wrong type. -/
  | argumentType (n : Nat) (expected : String) (actual : Option Value)
  /-- A message with the position of the caller. -/
  | located (text : ByteArray)
  /-- A value; a string gets the position of the function `level` calls up, unless that is zero. -/
  | value (v : Value) (level : Nat)
  /-- A message with the position of a script's function that is running itself. -/
  | runtime (text : ByteArray)
  /-- An operation that the type of its operand does not allow; which operand, if it is one. -/
  | operand (action : String) (v : Value) (place : Option Nat)
  | noInteger (place : Option Nat)
  | comparison (a b : Value)
  | host (e : HostError)
  | memory
  deriving Inhabited

/-! ## Programs -/

/-- Steps on the heap; each answers a value. -/
inductive HeapOp
  /-- The value of a key, without metamethods. -/
  | get (table : Nat) (key : Value)
  | set (table : Nat) (key value : Value)
  /-- A border of a table. -/
  | border (table : Nat)
  /-- The key after a key. -/
  | next (table : Nat) (key : Value)
  | metatable (v : Value)
  | setMetatable (table : Nat) (meta_ : Option Nat)
  | newTable (dense keyed : Nat)
  /-- The number past those of all tables. -/
  | tableEnd
  | newCell (v : Value)
  | getCell (id : Nat)
  | setCell (id : Nat) (v : Value)
  /-- Counts memory for a string of so many bytes. -/
  | reserve (bytes : Nat)
  /-- Counts work beyond one step. -/
  | spend (steps : Nat)
  deriving Inhabited

inductive Program (ε α : Type)
  | done (a : α)
  | fail (r : Raise)
  | heap (op : HeapOp) (next : Value → Program ε α)
  | call (f : Value) (arguments : List Value) (next : List Value → Program ε α)
  | emit (e : ε) (next : Unit → Program ε α)

namespace Program

variable {ε α β : Type}

def bind : Program ε α → (α → Program ε β) → Program ε β
  | done a, f => f a
  | fail r, _ => fail r
  | heap op next, f => heap op fun v => (next v).bind f
  | call g args next, f => call g args fun vs => (next vs).bind f
  | emit e next, f => emit e fun u => (next u).bind f

instance : Monad (Program ε) where
  pure := done
  bind := bind

/-- A program without effects, where effects are allowed. -/
def lift : Program Empty α → Program ε α
  | done a => done a
  | fail r => fail r
  | heap op next => heap op fun v => (next v).lift
  | call f args next => call f args fun vs => (next vs).lift
  | emit e _ => nomatch e

/-! ## Steps -/

def op (o : HeapOp) : Program ε Value := heap o done

def rawGet (table : Nat) (key : Value) : Program ε Value := op (.get table key)

def rawSet (table : Nat) (key value : Value) : Program ε Unit := heap (.set table key value) fun _ => done ()

/-- The heap answers a number. -/
def natOf : Value → Nat
  | .int i => i.toUInt64.toNat
  | _ => 0

def border (table : Nat) : Program ε Nat := heap (.border table) fun v => done (natOf v)

def newTable (dense keyed : Nat) : Program ε Nat :=
  heap (.newTable dense keyed) fun v => match v with
    | .table id => done id
    | _ => done 0

/-- How many tables there are. -/
def tableCount : Program ε Nat :=
  heap .tableEnd fun v => match v with
    | .table n => done n
    | _ => done 0

def reserve (bytes : Nat) : Program ε Unit := heap (.reserve bytes) fun _ => done ()

def spend (steps : Nat) : Program ε Unit := heap (.spend steps) fun _ => done ()

def invoke (f : Value) (args : List Value) : Program ε (List Value) := call f args done

/-- The first of some results. -/
def first (vs : List Value) : Value := vs.headD .nil

/-- Calls a function for one result. -/
def invoke₁ (f : Value) (args : List Value) : Program ε Value :=
  call f args fun vs => done (first vs)

def emitEffect (e : ε) : Program ε Unit := emit e done

def metatable? (v : Value) : Program ε (Option Nat) :=
  heap (.metatable v) fun m => match m with
    | .table id => done (some id)
    | _ => done none

/-- A metamethod of a value, nil where it has none. -/
def metamethod (v : Value) (event : String) : Program ε Value :=
  bind (metatable? v) fun m => match m with
    | some id => rawGet id (.ofString event)
    | none => done .nil

/-! ## Raising -/

def raise (r : Raise) : Program ε α := fail r

/-- A message with the position of the caller. -/
def raiseText (text : String) : Program ε α := fail (.located (Bytes.ofString text))

def badArgument (n : Nat) (text : String) : Program ε α := fail (.argument n (Bytes.ofString text))

/-- Each of a list of programs in order. -/
def each (f : β → Program ε Unit) : List β → Program ε Unit
  | [] => done ()
  | x :: xs => bind (f x) fun _ => each f xs

/-- A loop of at most `n` rounds over a state, until it ends by itself. -/
def loop {σ : Type} (step : σ → Program ε (σ ⊕ α)) (otherwise : α) : Nat → σ → Program ε α
  | 0, _ => done otherwise
  | n + 1, s => bind (step s) fun r => match r with
    | .inl s => loop step otherwise n s
    | .inr a => done a

end Program
end StrategyBench.Lua
