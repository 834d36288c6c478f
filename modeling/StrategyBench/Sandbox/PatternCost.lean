/-
StrategyBench.Sandbox.PatternCost — how long a match may take, estimated before it is tried.

Each repetition of a pattern may go over the whole subject once more for every start, and each
optional item doubles what there is to try.
-/

import StrategyBench.Lua.Bytes
import StrategyBench.Number.Decimal

namespace StrategyBench.Sandbox.PatternCost

/-! ## Scanning -/

/-- How many items of a pattern repeat, and how many are optional. -/
structure Quantifiers where
  repeats : Nat := 0
  optionals : Nat := 0
  deriving DecidableEq, Repr

def Quantifiers.repeated (q : Quantifiers) : Quantifiers := { q with repeats := q.repeats + 1 }

def Quantifiers.optional (q : Quantifiers) : Quantifiers := { q with optionals := q.optionals + 1 }

/-- What is after the closing bracket of a set. -/
def setEnd : List UInt8 → List UInt8
  | 37 :: _ :: rest => setEnd rest
  | 93 :: rest => rest
  | _ :: rest => setEnd rest
  | [] => []

/-- What is after a set, from after its opening bracket; a closing bracket at once is a member. -/
def skipSet (cs : List UInt8) : List UInt8 :=
  let cs := match cs with
    | 94 :: rest => rest
    | cs => cs
  match cs with
  | 93 :: rest => setEnd rest
  | cs => setEnd cs

def isDigit (c : UInt8) : Bool := 48 ≤ c && c ≤ 57

/-- Counts from a place on; the first byte of a pattern is no quantifier. -/
def countFrom (first : Bool) (q : Quantifiers) : Nat → List UInt8 → Quantifiers
  | 0, _ => q
  | _, [] => q
  | n + 1, 37 :: 98 :: rest => countFrom false q.repeated n (rest.drop 2)
  | n + 1, 37 :: c :: rest => countFrom false (if isDigit c then q.repeated else q) n rest
  | n + 1, 91 :: rest => countFrom false q n (skipSet rest)
  | n + 1, c :: rest =>
    if first then countFrom false q n rest
    else if c = 42 ∨ c = 43 ∨ c = 45 then countFrom false q.repeated n rest
    else if c = 63 then countFrom false q.optional n rest
    else countFrom false q n rest

def quantifiers (pattern : List UInt8) : Quantifiers := countFrom true {} pattern.length pattern

/-! ## The estimate -/

/-- A power by repeated squaring: `r · a ^ n`. -/
def powerOnto (r a : Double) (n : Nat) : Nat → Double
  | 0 => r
  | fuel + 1 =>
    let r := if n % 2 = 1 then r.mul a else r
    if n / 2 = 0 then r else powerOnto r (a.mul a) (n / 2) fuel

/-- A power with an exponent of 32 bits; for a negative one, of what is divided by the base. -/
def power (a : Double) (n : Int) : Double :=
  let r := powerOnto (Double.ofNat 1) a n.natAbs 32
  if n < 0 then (Double.ofNat 1).div r else r

/-- A count as an exponent, whose greatest bit is its sign. -/
def exponent (count : Nat) : Int := (Int32.ofNat count).toInt

/-- The greatest count of 32 bits. -/
def maxCount : Nat := 4294967295

/-- The estimated steps for a subject of some length. -/
def estimate (subjectLength : Nat) (pattern : List UInt8) : Double :=
  let q := quantifiers pattern
  let base := (Double.ofNat subjectLength).add (Double.ofNat 1)
  (power base (exponent (min (q.repeats + 1) maxCount))).mul (power (Double.ofNat 2) (exponent q.optionals))

/-- The greatest number of steps that is let through. -/
def maxSteps : Nat := 10000000

/-- A number without places. -/
def wholeText (x : Double) : String :=
  if x.isFinite then toString (Decimal.atPlaces x 0) else "inf"

/-- Why a pattern is refused for a subject of some length. -/
def refusal? (subjectLength : Nat) (pattern : List UInt8) : Option String :=
  let cost := estimate subjectLength pattern
  if (Double.ofNat maxSteps).lt cost then
    some ("模式過於複雜: 主體 " ++ toString subjectLength ++ " 位元組、估算 " ++ wholeText cost
      ++ " 步超過上限")
  else none

end StrategyBench.Sandbox.PatternCost
