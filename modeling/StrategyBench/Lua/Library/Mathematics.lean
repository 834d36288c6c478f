/-
StrategyBench.Lua.Library.Mathematics — the functions of `math`.
-/

import StrategyBench.Lua.Library.Arguments

namespace StrategyBench.Lua.Library.Mathematics

open Program

/-! ## Functions of one number -/

def pi : Double := ⟨0x400921FB54442D18⟩

def apply (f : Double → Double) (args : List Value) : Body := do
  answerFloat (f (← number args 1))

def hardware (f : Float → Float) : Double → Double := Double.lift1 f

def degrees (x : Double) : Double := x.mul ((Double.ofNat 180).div pi)

def radians (x : Double) : Double := x.mul (pi.div (Double.ofNat 180))

/-- A rounding; an integer stays as it is. -/
def round (f : Double → Double) (args : List Value) : Body := do
  match argument args 1 with
  | .int i => answerInt i
  | _ => return [integral (f (← number args 1))]

def abs (args : List Value) : Body := do
  match argument args 1 with
  | .int i => answerInt (if i < 0 then -i else i)
  | _ => answerFloat (← number args 1).abs

def modf (args : List Value) : Body := do
  match argument args 1 with
  | .int i => return [.int i, .float Double.zero]
  | _ =>
    let x ← number args 1
    let whole := if x.lt Double.zero then x.ceil else x.floor
    let part := if x.eq whole then Double.zero else x.sub whole
    return [integral whole, .float part]

def tointeger (args : List Value) : Body := do
  match (argument args 1).toInt? with
  | some i => answerInt i
  | none =>
    present args 1
    return [.nil]

def mathType (args : List Value) : Body := do
  present args 1
  match argument args 1 with
  | .int _ => answerString "integer"
  | .float _ => answerString "float"
  | _ => return [.nil]

/-- A float as its fraction in `[1/2, 1)` and its binary exponent. -/
def frexp (args : List Value) : Body := do
  let (fraction, exponent) := (← number args 1).splitExponent
  return [.float fraction, .int (Int64.ofInt exponent)]

/-! ## Functions of more numbers -/

def fmod (args : List Value) : Body := do
  match argument args 1, argument args 2 with
  | .int a, .int b =>
    check (b ≠ 0) 2 "zero"
    answerInt (if b = -1 then 0 else Int64.ofInt (a.toInt.tmod b.toInt))
  | _, _ =>
    let x ← number args 1
    let y ← number args 2
    answerFloat (x.truncRem y)

def atan (args : List Value) : Body := do
  let y ← number args 1
  let x ← if absent args 2 then done (Double.ofNat 1) else number args 2
  answerFloat (Double.lift2 Float.atan2 y x)

def pow (args : List Value) : Body := do
  let x ← number args 1
  let y ← number args 2
  answerFloat (x.pow y)

def ldexp (args : List Value) : Body := do
  let x ← number args 1
  let e ← integer args 2
  answerFloat (x.scaleBinary e.toInt)

def log (args : List Value) : Body := do
  let x ← number args 1
  if absent args 2 then answerFloat (hardware Float.log x)
  else
    let base ← number args 2
    if base.eq (Double.ofNat 2) then answerFloat (hardware Float.log2 x)
    else if base.eq (Double.ofNat 10) then answerFloat (hardware Float.log10 x)
    else answerFloat ((hardware Float.log x).div (hardware Float.log base))

def ult (args : List Value) : Body := do
  let a ← integer args 1
  let b ← integer args 2
  return [.bool (a.toUInt64 < b.toUInt64)]

/-- The value that no other one is to be taken for, in the order of the arguments. -/
def extreme (better : Value → Value → Program Empty Bool) (best : Value) : List Value → Body
  | [] => done [best]
  | v :: rest => do
    if ← better v best then extreme better v rest else extreme better best rest

def max (args : List Value) : Body := do
  present args 1
  extreme (fun v best => Operation.less best v) (argument args 1) args.tail

def min (args : List Value) : Body := do
  present args 1
  extreme (fun v best => Operation.less v best) (argument args 1) args.tail

/-! ## Random numbers -/

/-- The state of the generator xoshiro256**. -/
structure Generator where
  a : UInt64
  b : UInt64
  c : UInt64
  d : UInt64
  deriving DecidableEq, Repr

namespace Generator

def rotateLeft (x n : UInt64) : UInt64 := (x <<< n) ||| (x >>> (64 - n))

/-- The next number, and the state after it. -/
def next (g : Generator) : UInt64 × Generator :=
  let c := g.c ^^^ g.a
  let d := g.d ^^^ g.b
  (rotateLeft (g.b * 5) 7 * 9, ⟨g.a ^^^ d, g.b ^^^ c, c ^^^ (g.b <<< 17), rotateLeft d 45⟩)

/-- The state after some numbers. -/
def skip (g : Generator) : Nat → Generator
  | 0 => g
  | n + 1 => g.next.2.skip n

/-- How many numbers of a new seed are left out. -/
def discarded : Nat := 16

def ofSeed (first second : Int64) : Generator :=
  (⟨first.toUInt64, 0xFF, second.toUInt64, 0⟩ : Generator).skip discarded

/-- The state as values. -/
def values (g : Generator) : List Value := [g.a, g.b, g.c, g.d].map fun word => .int word.toInt64

end Generator

/-- The values of the cells that come first: the state of the generator, and the seed it was given at
the start. -/
def firstCells (first second : Int64) : List Value :=
  (Generator.ofSeed first second).values ++ [.int first, .int second]

/-- The cells that `firstCells` are in. -/
def cells : List Nat := [0, 1, 2, 3, 4, 5]

def integerAt (cell : Nat) : Program Empty Int64 := do
  match ← op (.getCell cell) with
  | .int i => done i
  | _ => done 0

def generator : Program Empty Generator := do
  return ⟨(← integerAt 0).toUInt64, (← integerAt 1).toUInt64, (← integerAt 2).toUInt64, (← integerAt 3).toUInt64⟩

def setGenerator (g : Generator) : Program Empty Unit :=
  (g.values.zipIdx).forM fun (v, cell) => do let _ ← op (.setCell cell v)

def draw : Program Empty UInt64 := do
  let (bits, g) := (← generator).next
  setGenerator g
  return bits

/-- A number in `[0, 1)`. -/
def unitInterval (bits : UInt64) : Double := Double.ofBinary false (bits >>> 11).toNat (-53)

/-- The least number with nothing but ones in binary that is not below `n`. -/
def mask (n : UInt64) : UInt64 :=
  ([1, 2, 4, 8, 16, 32] : List UInt64).foldl (fun m shift => m ||| (m >>> shift)) n

/-- How often it is drawn again at most. A number is over the bound less than half of the time, so
there is no seed known from which so many in a row are. -/
def maxDraws : Nat := 1000000

/-- Draws again until what is left of a number by a mask is at most `n`. -/
def drawUpTo (n : UInt64) : Nat → UInt64 → Program Empty UInt64
  | 0, bits => done (bits % (n + 1))
  | again + 1, bits => do
    if bits &&& mask n ≤ n then done (bits &&& mask n) else drawUpTo n again (← draw)

/-- A number from nought to `n` out of one that was drawn. -/
def project (bits n : UInt64) : Program Empty UInt64 :=
  if n &&& (n + 1) = 0 then done (bits &&& n) else drawUpTo n maxDraws bits

def within (bits : UInt64) (low up : Int64) : Body := do
  check (low ≤ up) 1 "interval is empty"
  answerInt ((← project bits (up.toUInt64 - low.toUInt64)) + low.toUInt64).toInt64

def random (args : List Value) : Body := do
  let bits ← draw
  match args with
  | [] => answerFloat (unitInterval bits)
  | [_] =>
    let up ← integer args 1
    if up = 0 then answerInt bits.toInt64 else within bits 1 up
  | [_, _] =>
    let low ← integer args 1
    let up ← integer args 2
    within bits low up
  | _ => raiseText "wrong number of arguments"

/-- Without arguments a new seed would be chosen by the clock; here it is the seed of the start again. -/
def randomseed (args : List Value) : Body := do
  let first ← if args.isEmpty then integerAt 4 else do
    match argument args 1 with
    | .float x => done ((Numeral.exactInt? x).getD x.bits.toInt64)
    | _ => integer args 1
  let second ← if args.isEmpty then integerAt 5 else integerOr args 2 0
  setGenerator (.ofSeed first second)
  return [.int first, .int second]

end StrategyBench.Lua.Library.Mathematics
