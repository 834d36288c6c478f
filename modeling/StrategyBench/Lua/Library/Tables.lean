/-
StrategyBench.Lua.Library.Tables — the functions of `table`.
-/

import StrategyBench.Lua.Library.Arguments

namespace StrategyBench.Lua.Library.Tables

open Program

/-! ## Tables as arguments -/

/-- Refuses an argument that is no table and lacks the metamethods of one. -/
def tableLike (args : List Value) (n : Nat) (events : List String) : Program Empty Unit :=
  match argument args n with
  | .table _ => done ()
  | v => do
    match ← metatable? v with
    | none => wrongType args n "table"
    | some m => each (fun event => do
        if (← rawGet m (.ofString event)).isNil then wrongType args n "table") events

def lengthOf (args : List Value) (events : List String) : Program Empty Int64 := do
  tableLike args 1 (events ++ ["__len"])
  Operation.lengthInt (argument args 1)

def at_ (t : Value) (i : Int64) : Program Empty Value := Operation.index t (.int i)

def put (t : Value) (i : Int64) (v : Value) : Program Empty Unit := Operation.setIndex t (.int i) v

def reading : List String := ["__index"]
def both : List String := ["__index", "__newindex"]

/-- How many integers there are from `low` to `high`. -/
def span (low high : Int64) : Nat := (high.toInt - low.toInt + 1).toNat

/-! ## One element -/

/-- Moves `n` elements up by one, the last one, at `i - 1`, first. -/
def moveUp (t : Value) (i : Int64) : Nat → Program Empty Unit
  | 0 => done ()
  | n + 1 => do
    put t i (← at_ t (i - 1))
    moveUp t (i - 1) n

def insert (args : List Value) : Body := do
  let e := (← lengthOf args both) + 1
  let t := argument args 1
  match args with
  | [_, v] =>
    put t e v
    return []
  | [_, _, v] =>
    let pos ← integer args 2
    check ((pos - 1).toUInt64 < e.toUInt64) 2 "position out of bounds"
    moveUp t e (span pos e - 1)
    put t pos v
    return []
  | _ => raiseText "wrong number of arguments to 'insert'"

/-- Moves `n` elements down by one, the first one, at `i + 1`, first. -/
def moveDown (t : Value) (i : Int64) : Nat → Program Empty Unit
  | 0 => done ()
  | n + 1 => do
    put t i (← at_ t (i + 1))
    moveDown t (i + 1) n

def remove (args : List Value) : Body := do
  let size ← lengthOf args both
  let t := argument args 1
  let pos ← integerOr args 2 size
  check (pos = size || (pos - 1).toUInt64 ≤ size.toUInt64) 2 "position out of bounds"
  let v ← at_ t pos
  let n := span pos size - 1
  moveDown t pos n
  put t (pos + Int64.ofNat n) .nil
  return [v]

/-! ## Many elements -/

def copyUp (source target : Value) (i j : Int64) : Nat → Program Empty Unit
  | 0 => done ()
  | n + 1 => do
    put target j (← at_ source i)
    copyUp source target (i + 1) (j + 1) n

def copyDown (source target : Value) (i j : Int64) : Nat → Program Empty Unit
  | 0 => done ()
  | n + 1 => do
    put target j (← at_ source i)
    copyDown source target (i - 1) (j - 1) n

def move (args : List Value) : Body := do
  let f ← integer args 2
  let e ← integer args 3
  let t ← integer args 4
  let place := if absent args 5 then 1 else 5
  tableLike args 1 reading
  tableLike args place ["__newindex"]
  let source := argument args 1
  let target := argument args place
  if f ≤ e then
    check (0 < f || e.toInt < Numeral.maxInt + f.toInt) 3 "too many elements to move"
    let n := span f e
    check (t.toInt ≤ Numeral.maxInt - n + 1) 4 "destination wrap around"
    let overlaps ← if e < t || t ≤ f then done false
      else if place = 1 then done true
      else Operation.equals source target
    if !overlaps then copyUp source target f t n
    else
      let last := Int64.ofNat (n - 1)
      copyDown source target (f + last) (t + last) n
  return [target]

/-- The parts of a joined text, last first. -/
def joinFrom (t : Value) (separator : ByteArray) (parts : List ByteArray) (i : Int64) : Nat → Body
  | 0 =>
    let joined := Bytes.join parts.reverse
    do
      reserve (joined.size + 25)
      return [.str joined]
  | n + 1 => do
    match (← at_ t i).text? with
    | none => raiseText ("invalid value (at index " ++ Numeral.intText i ++ ") in table for 'concat'")
    | some s => do
      reserve (s.size + separator.size)
      joinFrom t separator (if n = 0 then s :: parts else separator :: s :: parts) (i + 1) n

def concat (args : List Value) : Body := do
  let size ← lengthOf args reading
  let separator ← stringOr args 2 ByteArray.empty
  let i ← integerOr args 3 1
  let last ← integerOr args 4 size
  joinFrom (argument args 1) separator [] i (if last < i then 0 else span i last)

def fill (t : Nat) (i : Int64) : List Value → Program Empty Unit
  | [] => done ()
  | v :: rest => do
    rawSet t (.int i) v
    fill t (i + 1) rest

def pack (args : List Value) : Body := do
  let t ← newTable args.length 1
  fill t 1 args
  rawSet t (.ofString "n") (.ofNat args.length)
  return [.table t]

/-- Elements, last first. -/
def elements (t : Value) (values : List Value) (i : Int64) : Nat → Body
  | 0 => done values.reverse
  | n + 1 => do
    let v ← at_ t i
    elements t (v :: values) (i + 1) n

def unpack (args : List Value) : Body := do
  let i ← integerOr args 2 1
  let t := argument args 1
  let last ← if absent args 3 then Operation.lengthInt t else integer args 3
  if last < i then return []
  if maxValues < span i last then raiseText "too many results to unpack"
  spend (Heap.valueSteps * span i last)
  elements t [] i (span i last)

/-! ## Sorting -/

/-- Which of two values comes first. -/
abbrev Precedes := Value → Value → Program Empty Bool

def precedes (f : Value) : Precedes :=
  if f.isNil then Operation.less else fun a b => do return (← invoke₁ f [a, b]).truthy

def badOrder : Program Empty α := raiseText "invalid order function for sorting"

variable (t : Value) (before : Precedes)

def place (i : Nat) : Int64 := Int64.ofNat i

/-- The next place above `i` whose value is not before the pivot, and the value; `up - 1` holds the
pivot itself. -/
def scanUp (pivot : Value) (up i : Nat) : Nat → Program Empty (Nat × Value)
  | 0 => badOrder
  | n + 1 => do
    let i := i + 1
    let v ← at_ t (place i)
    if ← before v pivot then
      if i = up - 1 then badOrder else scanUp pivot up i n
    else return (i, v)

/-- The next place below `j` whose value the pivot is not before, and the value. -/
def scanDown (pivot : Value) (i j : Nat) : Nat → Program Empty (Nat × Value)
  | 0 => badOrder
  | n + 1 => do
    let j := j - 1
    let v ← at_ t (place j)
    if ← before pivot v then
      if j < i then badOrder else scanDown pivot i j n
    else return (j, v)

/-- Splits the values between `i` and `j` by the pivot; answers where the pivot goes. -/
def partition (pivot : Value) (up i j : Nat) : Nat → Program Empty Nat
  | 0 => badOrder
  | n + 1 => do
    let (i, a) ← scanUp t before pivot up i (up + 1)
    let (j, b) ← scanDown t before pivot i j (up + 1)
    if j < i then
      put t (place (up - 1)) a
      put t (place i) pivot
      return i
    else
      put t (place i) b
      put t (place j) a
      partition pivot up i j n

/-- Puts the values at two places in order. -/
def orderPair (lo up : Nat) : Program Empty Unit := do
  let a ← at_ t (place lo)
  let b ← at_ t (place up)
  if ← before b a then
    put t (place lo) b
    put t (place up) a

/-- Puts the middle value between the outer two. -/
def orderMiddle (lo p up : Nat) : Program Empty Unit := do
  let m ← at_ t (place p)
  let a ← at_ t (place lo)
  if ← before m a then
    put t (place p) a
    put t (place lo) m
  else
    let b ← at_ t (place up)
    if ← before b m then
      put t (place p) b
      put t (place up) m

/-- Sorts from `lo` to `up`, the smaller part of each split first. -/
def sortRange : Nat → Nat → Nat → Program Empty Unit
  | 0, _, _ => done ()
  | n + 1, lo, up =>
    if up ≤ lo then done ()
    else do
      orderPair t before lo up
      if up - lo = 1 then return
      let p := (lo + up) / 2
      orderMiddle t before lo p up
      if up - lo = 2 then return
      let pivot ← at_ t (place p)
      let last ← at_ t (place (up - 1))
      put t (place p) last
      put t (place (up - 1)) pivot
      let p ← partition t before pivot up lo (up - 1) (up + 1)
      if p - lo < up - p then
        sortRange n lo (p - 1)
        sortRange n (p + 1) up
      else
        sortRange n (p + 1) up
        sortRange n lo (p - 1)

def sort (args : List Value) : Body := do
  let n ← lengthOf args both
  if n ≤ 1 then return []
  check (n.toInt < 2147483647) 1 "array too big"
  let f := argument args 2
  if !f.isNil && !f.isFunction then wrongType args 2 "function"
  let n := n.toInt.toNat
  sortRange (argument args 1) (precedes f) n 1 n
  return []

end StrategyBench.Lua.Library.Tables
