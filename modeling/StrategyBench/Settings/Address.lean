/-
StrategyBench.Settings.Address — network addresses with a port.

An IPv4 address has four numbers without leading zeros; an IPv6 address stands in brackets, has one
`::` at most and may end in an IPv4 address and in a scope after `%`. Written, the first longest run
of two or more zero groups becomes `::`.
-/

import StrategyBench.Number.Power

namespace StrategyBench

structure IPv4 where
  a : Nat
  b : Nat
  c : Nat
  d : Nat
  deriving DecidableEq, Repr

inductive SocketAddress
  | v4 (address : IPv4) (port : Nat)
  | v6 (groups : List Nat) (scope : Nat) (port : Nat)
  deriving DecidableEq, Repr

namespace SocketAddress

/-! ## Reading -/

def digitValue? (radix : Nat) (c : Char) : Option Nat :=
  let v? := if '0' ≤ c ∧ c ≤ '9' then some (c.toNat - 48)
    else if 'a' ≤ c ∧ c ≤ 'z' then some (c.toNat - 87)
    else if 'A' ≤ c ∧ c ≤ 'Z' then some (c.toNat - 55)
    else none
  v?.filter (· < radix)

/-- All digits that follow, up to `limit`; more of them, a greater number or none is refused. -/
def readNumber (radix maxDigits limit : Nat) (leadingZeros : Bool) (cs : List Char) :
    Option (Nat × List Char) :=
  let ds := cs.takeWhile fun c => (digitValue? radix c).isSome
  let n := ds.foldl (fun n c => n * radix + (digitValue? radix c).getD 0) 0
  if ds.isEmpty ∨ ds.length > maxDigits ∨ n > limit then none
  else if !leadingZeros ∧ ds.length > 1 ∧ ds.head? = some '0' then none
  else some (n, cs.drop ds.length)

def readChar (c : Char) : List Char → Option (List Char)
  | d :: rest => if d = c then some rest else none
  | [] => none

def unlimited : Nat := 1000000

def readIPv4 (cs : List Char) : Option (IPv4 × List Char) := do
  let octet := readNumber 10 3 255 false
  let (a, cs) ← octet cs
  let (b, cs) ← octet (← readChar '.' cs)
  let (c, cs) ← octet (← readChar '.' cs)
  let (d, cs) ← octet (← readChar '.' cs)
  some (⟨a, b, c, d⟩, cs)

/-- The separator before every group but the first. -/
def readSeparated {α : Type} (first : Bool) (read : List Char → Option (α × List Char))
    (cs : List Char) : Option (α × List Char) :=
  if first then read cs else (readChar ':' cs).bind read

/-- Up to `left` groups, and whether they ended in an IPv4 address (which makes two groups). -/
def readGroups (first : Bool) (cs : List Char) : Nat → List Nat × Bool × List Char
  | 0 => ([], false, cs)
  | left + 1 =>
    match (if left ≥ 1 then readSeparated first readIPv4 cs else none) with
    | some (ip, rest) => ([ip.a * 256 + ip.b, ip.c * 256 + ip.d], true, rest)
    | none =>
      match readSeparated first (readNumber 16 4 65535 true) cs with
      | some (g, rest) =>
        let (gs, mixed, rest) := readGroups false rest left
        (g :: gs, mixed, rest)
      | none => ([], false, cs)

def readIPv6 (cs : List Char) : Option (List Nat × List Char) := do
  let (head, mixed, rest) := readGroups true cs 8
  if head.length = 8 then some (head, rest)
  else if mixed then none
  else
    let rest ← readChar ':' rest
    let rest ← readChar ':' rest
    let (tail, _, rest) := readGroups true rest (8 - (head.length + 1))
    some (head ++ List.replicate (8 - head.length - tail.length) 0 ++ tail, rest)

def readPort (cs : List Char) : Option (Nat × List Char) := do
  readNumber 10 unlimited 65535 true (← readChar ':' cs)

def readScope (cs : List Char) : Nat × List Char :=
  match (readChar '%' cs).bind (readNumber 10 unlimited (twoTo 32 - 1) true) with
  | some (n, rest) => (n, rest)
  | none => (0, cs)

def readV4 (cs : List Char) : Option SocketAddress := do
  let (address, rest) ← readIPv4 cs
  let (port, rest) ← readPort rest
  if rest.isEmpty then some (.v4 address port) else none

def readV6 (cs : List Char) : Option SocketAddress := do
  let (groups, rest) ← readIPv6 (← readChar '[' cs)
  let (scope, rest) := readScope rest
  let (port, rest) ← readPort (← readChar ']' rest)
  if rest.isEmpty then some (.v6 groups scope port) else none

def read? (text : String) : Option SocketAddress :=
  (readV4 text.toList).or (readV6 text.toList)

/-! ## Writing -/

def IPv4.text (x : IPv4) : String :=
  ".".intercalate ([x.a, x.b, x.c, x.d].map toString)

def hex (n : Nat) : String := String.ofList (Nat.toDigits 16 n)

def hexGroups (gs : List Nat) : String := ":".intercalate (gs.map hex)

/-- How many groups from here on are zero. -/
def zeroRun (gs : List Nat) : Nat := (gs.takeWhile (· = 0)).length

/-- Place and length of the first longest run of zero groups. -/
def longestZeroRun (place : Nat) : List Nat → Nat × Nat
  | [] => (place, 0)
  | g :: gs =>
    let here := zeroRun (g :: gs)
    let later := longestZeroRun (place + 1) gs
    if here ≥ later.2 then (place, here) else later

def groupsText (gs : List Nat) : String :=
  match gs with
  | [0, 0, 0, 0, 0, 65535, g, h] => "::ffff:" ++ IPv4.text ⟨g / 256, g % 256, h / 256, h % 256⟩
  | gs =>
    let (place, length) := longestZeroRun 0 gs
    if length > 1 then hexGroups (gs.take place) ++ "::" ++ hexGroups (gs.drop (place + length))
    else hexGroups gs

def text : SocketAddress → String
  | .v4 address port => IPv4.text address ++ ":" ++ toString port
  | .v6 groups scope port =>
    "[" ++ groupsText groups ++ (if scope = 0 then "" else "%" ++ toString scope) ++ "]:" ++ toString port

end SocketAddress
end StrategyBench
