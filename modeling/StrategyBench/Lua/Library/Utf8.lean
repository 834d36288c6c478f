/-
StrategyBench.Lua.Library.Utf8 — the functions of `utf8`.
-/

import StrategyBench.Lua.Library.Arguments

namespace StrategyBench.Lua.Library.Utf8

open Program

/-! ## Codes -/

def maxCode : Nat := 0x7FFFFFFF
def maxUnicode : Nat := 0x10FFFF

def invalidCode : String := "invalid UTF-8 code"

/-- The pattern of one code. -/
def charPattern : ByteArray :=
  Bytes.ofList [91, 0, 45, 0x7F, 0xC2, 45, 0xFD, 93, 91, 0x80, 45, 0xBF, 93, 42]

def byteAt (s : ByteArray) (i : Nat) : UInt8 := (Bytes.get? s i).getD 0

def continues (s : ByteArray) (i : Nat) : Bool := Bytes.isContinuation (byteAt s i)

/-- How many bytes follow a lead byte. -/
def followers (lead : UInt8) : Nat :=
  if lead < 0xC0 then 0 else if lead < 0xE0 then 1 else if lead < 0xF0 then 2
  else if lead < 0xF8 then 3 else if lead < 0xFC then 4 else if lead < 0xFE then 5
  else if lead < 0xFF then 6 else 7

/-- The least code that takes so many followers. -/
def leastCode (followers : Nat) : Nat :=
  match followers with
  | 1 => 0x80
  | 2 => 0x800
  | 3 => 0x10000
  | 4 => 0x200000
  | _ => 0x4000000

def payload (s : ByteArray) (i : Nat) (acc : Nat) : Nat → Option Nat
  | 0 => some acc
  | n + 1 => if continues s i then payload s (i + 1) (acc * 64 + (byteAt s i &&& 0x3F).toNat) n else none

/-- The code at a place, and the place after it. -/
def decode? (s : ByteArray) (i : Nat) (strict : Bool) : Option (Nat × Nat) :=
  let lead := byteAt s i
  if lead < 0x80 then some (lead.toNat, i + 1)
  else
    let n := followers lead
    if n = 0 ∨ 5 < n then none
    else
      match payload s (i + 1) (lead.toNat % twoTo (6 - n)) n with
      | none => none
      | some code =>
        if maxCode < code ∨ code < leastCode n then none
        else if strict && (maxUnicode < code || (0xD800 ≤ code && code ≤ 0xDFFF)) then none
        else some (code, i + 1 + n)

/-- The bytes of a code, the leading ones in front of `acc`. -/
def encodeOnto (code limit : Nat) (acc : List UInt8) : Nat → List UInt8
  | 0 => acc
  | n + 1 =>
    if code ≤ limit then UInt8.ofNat ((twoTo 8 - 2 * (limit + 1) + code) % 256) :: acc
    else encodeOnto (code / 64) (limit / 2) (UInt8.ofNat (0x80 + code % 64) :: acc) n

def encode (code : Nat) : List UInt8 :=
  if code < 0x80 then [UInt8.ofNat code]
  else encodeOnto (code / 64) 0x1F [UInt8.ofNat (0x80 + code % 64)] 6

/-! ## Places -/

/-- A place counted from the start, or from the end if it is negative; zero before the start. -/
def placeFrom (i : Int64) (length : Nat) : Int :=
  let i := i.toInt
  if 0 ≤ i then i else if (length : Int) < -i then 0 else length + i + 1

/-! ## Functions -/

def charsFrom (args : List Value) (acc : List (List UInt8)) : List Value → Nat → Body
  | [], _ => answerText (Bytes.ofList acc.reverse.flatten)
  | _ :: rest, n => do
    let code := (← integer args n).toUInt64.toNat
    check (code ≤ maxCode) n "value out of range"
    charsFrom args (encode code :: acc) rest (n + 1)

def char (args : List Value) : Body := charsFrom args [] args 1

def codesFrom (s : ByteArray) (strict : Bool) (stop : Nat) (acc : List Value) (i : Nat) : Nat → Body
  | 0 => done acc.reverse
  | n + 1 =>
    if stop ≤ i then done acc.reverse
    else
      match decode? s i strict with
      | none => raiseText invalidCode
      | some (code, j) => codesFrom s strict stop (.ofNat code :: acc) j n

def codepoint (args : List Value) : Body := do
  let s ← string args 1
  let i ← integerOr args 2 1
  let start := placeFrom i s.size
  let stop := placeFrom (← integerOr args 3 (Int64.ofInt start)) s.size
  check (1 ≤ start) 2 "out of bounds"
  check (stop ≤ s.size) 3 "out of bounds"
  if stop < start then return []
  if maxValues < (stop - start).toNat then raiseText "stack overflow (string slice too long)"
  readThrough (stop - start).toNat
  codesFrom s (!(argument args 4).truthy) stop.toNat [] (start.toNat - 1) (s.size + 1)

/-- Counts codes from place `i` up to place `stop`, or answers where one is invalid. -/
def countFrom (s : ByteArray) (strict : Bool) (stop : Int) (i count : Nat) : Nat → List Value
  | 0 => [.ofNat count]
  | n + 1 =>
    if stop < i then [.ofNat count]
    else
      match decode? s i strict with
      | none => [.nil, .ofNat (i + 1)]
      | some (_, j) => countFrom s strict stop j (count + 1) n

def len (args : List Value) : Body := do
  let s ← string args 1
  let start := placeFrom (← integerOr args 2 1) s.size
  let stop := placeFrom (← integerOr args 3 (-1)) s.size
  check (1 ≤ start && start - 1 ≤ s.size) 2 "initial position out of bounds"
  check (stop - 1 < s.size) 3 "final position out of bounds"
  readThrough (3 * (stop - start).toNat)
  return countFrom s (!(argument args 4).truthy) (stop - 1) (start.toNat - 1) 0 (s.size + 1)

/-- Back to where the code starts that place `i` is in. -/
def codeStart (s : ByteArray) : Nat → Nat
  | 0 => 0
  | i + 1 => if continues s (i + 1) then codeStart s i else i + 1

/-- Past the continuation bytes from `i` on. -/
def codeEnd (s : ByteArray) (i : Nat) : Nat → Nat
  | 0 => i
  | n + 1 => if continues s i then codeEnd s (i + 1) n else i

/-- `n` codes back from a place, if there are so many. -/
def back (s : ByteArray) (i : Nat) : Nat → Option Nat
  | 0 => some i
  | n + 1 => if i = 0 then none else back s (codeStart s (i - 1)) n

/-- `n` codes on from a place, if there are so many. -/
def ahead (s : ByteArray) (i : Nat) : Nat → Option Nat
  | 0 => some i
  | n + 1 => if s.size ≤ i then none else ahead s (codeEnd s (i + 1) (s.size - i)) n

def placeOrNil : Option Nat → List Value
  | some i => [.ofNat (i + 1)]
  | none => [.nil]

def offset (args : List Value) : Body := do
  let s ← string args 1
  let n := (← integer args 2).toInt
  let default : Int64 := if 0 < n then 1 else Int64.ofNat (s.size + 1)
  let start := placeFrom (← integerOr args 3 default) s.size
  check (1 ≤ start && start - 1 ≤ s.size) 3 "position out of bounds"
  let i := start.toNat - 1
  if n = 0 then return [.ofNat (codeStart s i + 1)]
  if continues s i then raiseText "initial position is a continuation byte"
  if n < 0 then return placeOrNil (back s i (min n.natAbs (s.size + 1)))
  return placeOrNil (ahead s i (min (n.toNat - 1) (s.size + 1)))

def codes (args : List Value) : Body := do
  let s ← string args 1
  let lax := (argument args 2).truthy
  check (!continues s 0) 1 invalidCode
  return [.native (.codesStep lax), argument args 1, .int 0]

def codesStep (lax : Bool) (args : List Value) : Body := do
  let s ← string args 1
  let n := ((argument args 2).toInt?.getD 0).toUInt64.toNat
  let n := if n < s.size then codeEnd s n (s.size - n) else n
  if s.size ≤ n then return []
  match decode? s n (!lax) with
  | none => raiseText invalidCode
  | some (code, j) =>
    if continues s j then raiseText invalidCode else return [.ofNat (n + 1), .ofNat code]

end StrategyBench.Lua.Library.Utf8
