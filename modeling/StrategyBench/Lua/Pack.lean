/-
StrategyBench.Lua.Pack — values laid out as bytes, by a format of one letter for each.
-/

import StrategyBench.Lua.Program

namespace StrategyBench.Lua.Pack

/-! ## Formats -/

/-- What a letter of a format asks for. -/
inductive Kind
  | signed
  | unsigned
  | single
  | double
  /-- A string of a fixed size. -/
  | chars
  /-- A string after its length. -/
  | counted
  | zeroEnded
  | padding
  | alignment
  | nothing
  deriving DecidableEq, Repr

structure Mode where
  little : Bool := true
  maxAlign : Nat := 1
  deriving Repr

def maxIntSize : Nat := 16

def isDigit (c : UInt8) : Bool := 48 ≤ c && c ≤ 57

/-- A number, at most as large as a size may be; one more digit ends it. -/
def readNumber (n : Nat) : List UInt8 → Nat × List UInt8
  | [] => (n, [])
  | c :: rest =>
    if isDigit c && n ≤ 214748363 then readNumber (n * 10 + (c.toNat - 48)) rest else (n, c :: rest)

def number? (cs : List UInt8) : Option Nat × List UInt8 :=
  match cs with
  | c :: _ => if isDigit c then ((readNumber 0 cs).map some id) else (none, cs)
  | [] => (none, [])

def fault (text : String) : Raise := .located (Bytes.ofString text)

/-- A size from 1 to 16. -/
def size (cs : List UInt8) (default : Nat) : Except Raise (Nat × List UInt8) :=
  let (n?, rest) := number? cs
  let n := n?.getD default
  if n = 0 ∨ maxIntSize < n then
    .error (fault ("integral size (" ++ toString n ++ ") out of limits [1," ++ toString maxIntSize ++ "]"))
  else .ok (n, rest)

structure Letter where
  kind : Kind
  size : Nat
  deriving Repr

/-- The next letter with its size, and the mode after it. -/
def readOption (m : Mode) (c : UInt8) (rest : List UInt8) :
    Except Raise (Letter × Mode × List UInt8) :=
  let plain := fun (k : Kind) (n : Nat) => .ok (⟨k, n⟩, m, rest)
  let sized := fun (k : Kind) (default : Nat) => do
    let (n, rest) ← size rest default
    .ok (⟨k, n⟩, m, rest)
  match c with
  | 98 => plain .signed 1
  | 66 => plain .unsigned 1
  | 104 => plain .signed 2
  | 72 => plain .unsigned 2
  | 108 | 106 => plain .signed 8
  | 76 | 74 | 84 => plain .unsigned 8
  | 102 => plain .single 4
  | 110 | 100 => plain .double 8
  | 105 => sized .signed 4
  | 73 => sized .unsigned 4
  | 115 => sized .counted 8
  | 99 =>
    match number? rest with
    | (some n, rest) => .ok (⟨.chars, n⟩, m, rest)
    | (none, _) => .error (fault "missing size for format option 'c'")
  | 122 => plain .zeroEnded 0
  | 120 => plain .padding 1
  | 88 => plain .alignment 0
  | 32 => plain .nothing 0
  | 60 => .ok (⟨.nothing, 0⟩, { m with little := true }, rest)
  | 62 => .ok (⟨.nothing, 0⟩, { m with little := false }, rest)
  | 61 => .ok (⟨.nothing, 0⟩, { m with little := true }, rest)
  | 33 => do
    let (n, rest) ← size rest 8
    .ok (⟨.nothing, 0⟩, { m with maxAlign := n }, rest)
  | c => .error (.located (Bytes.join
      [Bytes.ofString "invalid format option '", Bytes.ofList [c], Bytes.ofString "'"]))

/-- An item of a format: what to write, after how many bytes of padding. -/
structure Item where
  kind : Kind
  size : Nat
  align : Nat
  deriving Repr

def badFormat (text : String) : Raise := .argument 1 (Bytes.ofString text)

def isPower (n : Nat) : Bool := n &&& (n - 1) == 0

/-- The next item, at a place. -/
def readItem (m : Mode) (place : Nat) (c : UInt8) (rest : List UInt8) :
    Except Raise (Item × Mode × List UInt8) := do
  let (o, m, rest) ← readOption m c rest
  let (align, m, rest) ←
    if o.kind = .alignment then
      match rest with
      | [] => .error (badFormat "invalid next option for option 'X'")
      | c :: rest => do
        let (next, m, rest) ← readOption m c rest
        if next.kind = .chars ∨ next.size = 0 then
          .error (badFormat "invalid next option for option 'X'")
        else .ok (next.size, m, rest)
    else .ok (o.size, m, rest)
  if align ≤ 1 ∨ o.kind = .chars then .ok (⟨o.kind, o.size, 0⟩, m, rest)
  else
    let align := min align m.maxAlign
    if !isPower align then .error (badFormat "format asks for alignment not power of 2")
    else .ok (⟨o.kind, o.size, (align - place % align) % align⟩, m, rest)

/-! ## Numbers as bytes -/

/-- The last `n` bytes of a number, the least one first. -/
def bytesOf (v : Nat) : Nat → List UInt8
  | 0 => []
  | n + 1 => UInt8.ofNat (v % 256) :: bytesOf (v / 256) n

def ordered (m : Mode) (bs : List UInt8) : List UInt8 := if m.little then bs else bs.reverse

/-- An integer in `n` bytes. -/
def intBytes (m : Mode) (i : Int) (n : Nat) : List UInt8 :=
  ordered m (bytesOf (i % ((twoTo (8 * n) : Nat) : Int)).toNat n)

/-- The number of some bytes, the least one first. -/
def valueOf : List UInt8 → Nat
  | [] => 0
  | b :: rest => b.toNat + 256 * valueOf rest

/-- An integer from its bytes; what does not fit in 64 bits is refused. -/
def readInt (m : Mode) (bs : List UInt8) (signed : Bool) : Except Raise Int64 :=
  let bs := ordered m bs
  let n := bs.length
  let v := valueOf (bs.take 8)
  if n < 8 then
    let v : Int := if signed && twoTo (8 * n - 1) ≤ v then (v : Int) - twoTo (8 * n) else v
    .ok (Int64.ofInt v)
  else
    let i := Int64.ofNat v
    let fill : UInt8 := if signed && i < 0 then 255 else 0
    if (bs.drop 8).all (· == fill) then .ok i
    else .error (fault (toString n ++ "-byte integer does not fit into Lua Integer"))

/-- The 32 bits of the binary32 number nearest to a number. -/
def singleBits (x : Double) : Nat :=
  let sign := if x.isNegative then twoTo 31 else 0
  if x.isNaN then sign + 0x7FC00000
  else if x.isInfinite then sign + 0x7F800000
  else if x.isZero then sign
  else
    let p := x.parts
    let width : Int := p.mantissa.log2
    -- the exponent of the last place of the result
    let q : Int := max (p.exponent + width - 23) (-149)
    let shift := q - p.exponent
    let n :=
      if shift ≤ 0 then p.mantissa * twoTo (-shift).toNat
      else Double.roundHalfEven p.mantissa (twoTo shift.toNat)
    let (n, q) := if n = twoTo 24 then (twoTo 23, q + 1) else (n, q)
    if n < twoTo 23 then sign + n
    else if q > 104 then sign + 0x7F800000
    else sign + (q + 150).toNat * twoTo 23 + (n - twoTo 23)

def ofSingleBits (n : Nat) : Double :=
  let negative := twoTo 31 ≤ n
  let e : Nat := n / twoTo 23 % 256
  let f : Nat := n % twoTo 23
  if e = 255 then
    if f = 0 then (if negative then Double.infinity.neg else Double.infinity)
    else ⟨(if negative then 0xFFF8000000000000 else 0x7FF8000000000000)⟩
  else if e = 0 then Double.ofBinary negative f (-149)
  else Double.ofBinary negative (f + twoTo 23) ((e : Int) - 150)

end StrategyBench.Lua.Pack
