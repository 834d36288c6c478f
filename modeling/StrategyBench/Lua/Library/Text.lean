/-
StrategyBench.Lua.Library.Text — the functions of `string`, but for patterns.
-/

import StrategyBench.Lua.Library.Arguments
import StrategyBench.Lua.Format
import StrategyBench.Lua.Pack

namespace StrategyBench.Lua.Library.Text

open Program

/-! ## Parts -/

def len (args : List Value) : Body := do
  return [.ofNat (← string args 1).size]

def sub (args : List Value) : Body := do
  let s ← string args 1
  let start := startPlace (← integer args 2) s.size
  let stop := endPlace (← integerOr args 3 (-1)) s.size
  answerText (if stop < start then ByteArray.empty else s.extract (start - 1) stop)

def byte (args : List Value) : Body := do
  let s ← string args 1
  let i ← integerOr args 2 1
  let stop := endPlace (← integerOr args 3 i) s.size
  let start := startPlace i s.size
  if stop < start then return []
  if maxValues < stop - start then raiseText "stack overflow (string slice too long)"
  spend (Heap.valueSteps * (stop - start))
  return (s.extract (start - 1) stop).toList.map fun b => .int (Int64.ofNat b.toNat)

def charsFrom (args : List Value) (acc : List UInt8) : List Value → Nat → Body
  | [], _ => answerText (Bytes.ofList acc.reverse)
  | _ :: rest, n => do
    let i ← integer args n
    check (0 ≤ i && i ≤ 255) n "value out of range"
    charsFrom args (UInt8.ofNat i.toInt.toNat :: acc) rest (n + 1)

def char (args : List Value) : Body := charsFrom args [] args 1

/-! ## Whole strings -/

def mapBytes (f : UInt8 → UInt8) (args : List Value) : Body := do
  let s ← string args 1
  readThrough s.size
  answerText (Bytes.ofList (s.toList.map f))

def reverse (args : List Value) : Body := do
  let s ← string args 1
  readThrough s.size
  answerText (Bytes.ofList s.toList.reverse)

/-- The greatest length of a string that functions make. -/
def maxLength : Nat := 2147483647

/-- How many copies of nothing are made in a step. -/
def emptyCopiesPerStep : Nat := 24

/-- A unit `n` times with a separator between. -/
def repeated (unit separator : ByteArray) (n : Nat) : ByteArray :=
  Bytes.repeatAppend (separator ++ unit) unit (n - 1)

def rep (args : List Value) : Body := do
  let unit ← string args 1
  let n ← integer args 2
  let separator ← stringOr args 3 ByteArray.empty
  if n ≤ 0 then answerText ByteArray.empty
  else
    let n := n.toInt.toNat
    if maxLength / n < unit.size + separator.size then raiseText "resulting string too large"
    else if unit.size + separator.size = 0 then
      spend (n / emptyCopiesPerStep)
      answerText ByteArray.empty
    else
      reserve (n * unit.size + (n - 1) * separator.size + 25)
      readThrough n
      return [.str (repeated unit separator n)]

/-! ## Compiled functions -/

/-- What stands for the compiled code of a function. The dump itself is not modelled: this is made up, and
only its first bytes, which mark compiled code, are those of a dump. -/
def dumped : ByteArray := Bytes.ofList [27, 76, 117, 97, 0x54, 0]

def dump (args : List Value) : Body := do
  match argument args 1 with
  | .closure _ => answerText dumped
  | .native _ => raiseText "unable to dump given function"
  | _ => wrongType args 1 "function"

/-! ## Formatting -/

def signFlags : List UInt8 := [45, 43, 32, 48]
def bitFlags : List UInt8 := [45, 35, 48]
def plainFlags : List UInt8 := [45]
def unsignedFlags : List UInt8 := [45, 48]
def floatFlags : List UInt8 := [45, 43, 32, 35, 48]

/-- Refuses a specification whose modifiers do not go with its letter. -/
def valid (s : Format.Spec) (flags : List UInt8) (precision : Bool) : Program Empty Unit :=
  if s.isValid flags precision then done ()
  else
    raise (.located (Bytes.join
      [Bytes.ofString "invalid conversion specification: '", s.text, Bytes.ofString "'"]))

def formatInt (s : Format.Spec) (flags : List UInt8) (args : List Value) (n : Nat) :
    Program Empty ByteArray := do
  let i ← integer args n
  valid s flags true
  return (if s.letter == 100 || s.letter == 105 then Format.integer s.layout i
          else Format.bits s.layout s.letter i)

def formatString (s : Format.Spec) (args : List Value) (n : Nat) : Program Empty ByteArray := do
  let t ← Operation.display (argument args n)
  if s.modifiers.isEmpty then return t
  check (!t.toList.contains 0) n "string contains zeros"
  valid s plainFlags true
  return (if !s.modifiers.contains 46 && 100 ≤ t.size then t else Format.string s.layout t)

def formatPointer (s : Format.Spec) (args : List Value) (n : Nat) : Program Empty ByteArray := do
  valid s plainFlags false
  let v := argument args n
  let shown := match v with
    | .table _ | .closure _ | .native _ | .failure _ => Operation.address v
    | _ => "(null)"
  return Format.string s.layout (Bytes.ofString shown)

/-- An argument as its specification says. -/
def formatValue (s : Format.Spec) (args : List Value) (n : Nat) : Program Empty ByteArray :=
  match s.letter with
  | 99 => do
    valid s plainFlags false
    let i ← integer args n
    return Format.string s.layout (Bytes.ofList [UInt8.ofNat (i.toUInt64.toNat % 256)])
  | 100 | 105 => formatInt s signFlags args n
  | 117 => formatInt s unsignedFlags args n
  | 111 | 120 | 88 => formatInt s bitFlags args n
  | 97 | 65 => do
    valid s floatFlags true
    return Format.float s.layout s.letter (← number args n)
  | 101 | 69 | 102 | 103 | 71 => do
    let x ← number args n
    valid s floatFlags true
    return Format.float s.layout s.letter x
  | 112 => formatPointer s args n
  | 113 =>
    if !s.modifiers.isEmpty then raiseText "specifier '%q' cannot have modifiers"
    else
      match Format.literal? (argument args n) with
      | some t => done t
      | none => badArgument n "value has no literal form"
  | 115 => formatString s args n
  | _ => raise (.located (Bytes.join
      [Bytes.ofString "invalid conversion '", s.text, Bytes.ofString "' to 'format'"]))

/-- The parts of a formatted text, last first; `n` is the last argument that is used up. -/
def formatFrom (args : List Value) (parts : List ByteArray) (n : Nat) : Nat → List UInt8 → Body
  | 0, _ => answerText (Bytes.join parts.reverse)
  | _, [] => answerText (Bytes.join parts.reverse)
  | fuel + 1, 37 :: 37 :: rest => formatFrom args (Bytes.ofList [37] :: parts) n fuel rest
  | fuel + 1, 37 :: rest => do
    if args.length < n + 1 then badArgument (n + 1) "no value"
    match Format.readSpec rest with
    | none => raiseText "invalid format string to 'format'"
    | some (s, rest) => do
      let part ← formatValue s args (n + 1)
      reserve part.size
      formatFrom args (part :: parts) (n + 1) fuel rest
  | fuel + 1, c :: rest => do
    let (plain, rest) := rest.span (· ≠ 37)
    formatFrom args (Bytes.ofList (c :: plain) :: parts) n fuel rest

def format (args : List Value) : Body := do
  let s ← string args 1
  formatFrom args [] 1 (s.size + 1) s.toList

/-! ## Packing -/

/-- What is packed so far, last part first. -/
structure Packing where
  parts : List (List UInt8) := []
  size : Nat := 0
  mode : Pack.Mode := {}
  /-- The next argument. -/
  next : Nat := 2

def Packing.add (p : Packing) (bs : List UInt8) (used : Nat) : Packing :=
  { p with parts := bs :: p.parts, size := p.size + bs.length, next := p.next + used }

def zeros (n : Nat) : List UInt8 := List.replicate n 0

def packItem (args : List Value) (p : Packing) (i : Pack.Item) : Program Empty Packing := do
  let p := p.add (zeros i.align) 0
  let n := p.next
  match i.kind with
  | .signed =>
    let v ← integer args n
    let limit : Int := twoTo (8 * i.size - 1)
    check (8 ≤ i.size || (-limit ≤ v.toInt && v.toInt < limit)) n "integer overflow"
    return p.add (Pack.intBytes p.mode v.toInt i.size) 1
  | .unsigned =>
    let v ← integer args n
    check (8 ≤ i.size || v.toUInt64.toNat < twoTo (8 * i.size)) n "unsigned overflow"
    return p.add (Pack.intBytes p.mode v.toUInt64.toNat i.size) 1
  | .single =>
    let x ← number args n
    return p.add (Pack.intBytes p.mode (Pack.singleBits x) 4) 1
  | .double =>
    let x ← number args n
    return p.add (Pack.intBytes p.mode x.bits.toNat 8) 1
  | .chars =>
    let s ← string args n
    check (s.size ≤ i.size) n "string longer than given size"
    reserve i.size
    return p.add (s.toList ++ zeros (i.size - s.size)) 1
  | .counted =>
    let s ← string args n
    check (8 ≤ i.size || s.size < twoTo (8 * i.size)) n "string length does not fit in given size"
    return p.add (Pack.intBytes p.mode s.size i.size ++ s.toList) 1
  | .zeroEnded =>
    let s ← string args n
    check (!s.toList.contains 0) n "string contains zeros"
    return p.add (s.toList ++ [0]) 1
  | .padding => return p.add [0] 0
  | .alignment | .nothing => return p

def readItem (mode : Pack.Mode) (place : Nat) (c : UInt8) (rest : List UInt8) :
    Program Empty (Pack.Item × Pack.Mode × List UInt8) :=
  match Pack.readItem mode place c rest with
  | .ok r => done r
  | .error e => raise e

def packFrom (args : List Value) (p : Packing) : Nat → List UInt8 → Body
  | 0, _ => finish p
  | _, [] => finish p
  | fuel + 1, c :: rest => do
    let (item, mode, rest) ← readItem p.mode p.size c rest
    packFrom args (← packItem args { p with mode := mode } item) fuel rest
where
  finish (p : Packing) : Body := answerText (Bytes.ofList p.parts.reverse.flatten)

/-- The letters of a format, up to a zero byte. -/
def letters (args : List Value) : Program Empty (List UInt8) := do
  return (Bytes.untilZero (← string args 1)).toList

def pack (args : List Value) : Body := do
  let format ← letters args
  packFrom args {} (format.length + 1) format

def sizeFrom (mode : Pack.Mode) (total : Nat) : Nat → List UInt8 → Body
  | 0, _ => answerNat total
  | _, [] => answerNat total
  | fuel + 1, c :: rest => do
    let (item, mode, rest) ← readItem mode total c rest
    check (item.kind != .counted && item.kind != .zeroEnded) 1 "variable-length format"
    let size := item.size + item.align
    check (total + size ≤ maxLength) 1 "format result too large"
    sizeFrom mode (total + size) fuel rest

def packsize (args : List Value) : Body := do
  let format ← letters args
  sizeFrom {} 0 (format.length + 1) format

/-- The value of an item in `data` at a place, if it has one, and the place after it. -/
def unpackItem (mode : Pack.Mode) (i : Pack.Item) (data : ByteArray) (place : Nat) :
    Program Empty (Option Value × Nat) := do
  let bytes := (data.extract place (place + i.size)).toList
  let stop := place + i.size
  let int := fun signed => match Pack.readInt mode bytes signed with
    | .ok v => done v
    | .error e => raise (α := Int64) e
  match i.kind with
  | .signed => return (some (.int (← int true)), stop)
  | .unsigned => return (some (.int (← int false)), stop)
  | .single => return (some (.float (Pack.ofSingleBits (Pack.valueOf (Pack.ordered mode bytes)))), stop)
  | .double =>
    return (some (.float ⟨(Pack.valueOf (Pack.ordered mode bytes)).toUInt64⟩), stop)
  | .chars => return (some (.str (data.extract place stop)), stop)
  | .counted =>
    let n := (← int false).toUInt64.toNat
    check (n ≤ data.size - stop) 2 "data string too short"
    return (some (.str (data.extract stop (stop + n))), stop + n)
  | .zeroEnded =>
    match Bytes.find? data (Bytes.ofList [0]) place with
    | some e => return (some (.str (data.extract place e)), e + 1)
    | none => badArgument 2 "unfinished string for format 'z'"
  | .padding | .alignment | .nothing => return (none, stop)

def unpackFrom (data : ByteArray) (mode : Pack.Mode) (values : List Value) (place : Nat) :
    Nat → List UInt8 → Body
  | 0, _ => done (values.reverse ++ [.ofNat (place + 1)])
  | _, [] => done (values.reverse ++ [.ofNat (place + 1)])
  | fuel + 1, c :: rest => do
    let (item, mode, rest) ← readItem mode place c rest
    check (item.align + item.size ≤ data.size - place) 2 "data string too short"
    let (v, place) ← unpackItem mode item data (place + item.align)
    unpackFrom data mode (v.toList ++ values) place fuel rest

def unpack (args : List Value) : Body := do
  let format ← letters args
  let data ← string args 2
  let start := startPlace (← integerOr args 3 1) data.size - 1
  check (start ≤ data.size) 3 "initial position out of string"
  unpackFrom data {} [] start (format.length + 1) format

/-! ## Arithmetic on strings -/

/-- The metamethods of strings: arithmetic on what reads as numbers, or else the metamethod of the
second operand. -/
def arith (operator : ArithOp) (args : List Value) : Body := do
  let a := argument args 1
  let b := argument args 2
  match a.toNumber?, b.toNumber? with
  | some x, some y =>
    match Arith.run operator (.ofNumber x) (.ofNumber y) with
    | .value v => return [v]
    | .zeroDivisor text => raise (.runtime (Bytes.ofString text))
    | .unsuited => return [.nil]
  | _, _ =>
    let handler ← match b with
      | .str _ => done Value.nil
      | b => metamethod b ("__" ++ operator.event)
    if handler.isNil then
      raiseText ("attempt to " ++ operator.event ++ " a '" ++ a.typeName ++ "' with a '"
        ++ b.typeName ++ "'")
    else return [← invoke₁ handler [a, b]]

end StrategyBench.Lua.Library.Text
