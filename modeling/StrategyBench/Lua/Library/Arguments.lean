/-
StrategyBench.Lua.Library.Arguments — how built-in functions read their arguments.
-/

import StrategyBench.Lua.Operation

namespace StrategyBench.Lua.Library

open Program

/-- What a function of the libraries does. -/
abbrev Body := Program Empty (List Value)

variable {α : Type}

/-! ## Arguments -/

/-- An argument, counted from one; nil if it is missing. -/
def argument (args : List Value) (n : Nat) : Value := (args[n - 1]?).getD .nil

/-- Whether an argument is missing or nil. -/
def absent (args : List Value) (n : Nat) : Bool := (argument args n).isNil

def wrongType (args : List Value) (n : Nat) (expected : String) : Program Empty α :=
  raise (.argumentType n expected args[n - 1]?)

/-- Refuses a missing argument. -/
def present (args : List Value) (n : Nat) : Program Empty Unit :=
  if args.length < n then badArgument n "value expected" else done ()

def integer (args : List Value) (n : Nat) : Program Empty Int64 :=
  let v := argument args n
  match v.toInt? with
  | some i => done i
  | none =>
    if v.toNumber?.isSome then badArgument n "number has no integer representation"
    else wrongType args n "number"

def integerOr (args : List Value) (n : Nat) (default : Int64) : Program Empty Int64 :=
  if absent args n then done default else integer args n

def number (args : List Value) (n : Nat) : Program Empty Double :=
  match (argument args n).toDouble? with
  | some x => done x
  | none => wrongType args n "number"

def string (args : List Value) (n : Nat) : Program Empty ByteArray :=
  match (argument args n).text? with
  | some s => done s
  | none => wrongType args n "string"

def stringOr (args : List Value) (n : Nat) (default : ByteArray) : Program Empty ByteArray :=
  if absent args n then done default else string args n

def table (args : List Value) (n : Nat) : Program Empty Nat :=
  match argument args n with
  | .table id => done id
  | _ => wrongType args n "table"

/-- Refuses an argument with a reason, unless a condition holds. -/
def check (condition : Bool) (n : Nat) (reason : String) : Program Empty Unit :=
  if condition then done () else badArgument n reason

/-- Counts the work of going through bytes one by one. -/
def readThrough (bytes : Nat) : Program Empty Unit := spend (bytes / Heap.bytesReadPerStep)

/-! ## Answers -/

def answerText (s : ByteArray) : Body := do
  reserve (s.size + 25)
  return [.str s]

def answerString (s : String) : Body := answerText (Bytes.ofString s)

def answerInt (i : Int64) : Body := done [.int i]

def answerNat (n : Nat) : Body := done [.ofNat n]

def answerFloat (x : Double) : Body := done [.float x]

/-- A float as an integer, if there is such an integer. -/
def integral (x : Double) : Value :=
  match Numeral.exactInt? x with
  | some i => .int i
  | none => .float x

/-! ## Places -/

/-- A place counted from the start, or from the end if it is negative; at least one. -/
def startPlace (i : Int64) (length : Nat) : Nat :=
  let i := i.toInt
  if 0 < i then i.toNat
  else if i = 0 ∨ i < -(length : Int) then 1
  else ((length : Int) + i + 1).toNat

/-- The same for an end, at most the length. -/
def endPlace (i : Int64) (length : Nat) : Nat :=
  let i := i.toInt
  if (length : Int) < i then length
  else if 0 ≤ i then i.toNat
  else if i < -(length : Int) then 0
  else ((length : Int) + i + 1).toNat

/-- How many values the stack has room for. -/
def maxValues : Nat := 999000

end StrategyBench.Lua.Library
