/-
StrategyBench.Lua.Library.Basic — the basic functions.
-/

import StrategyBench.Lua.Library.Arguments

namespace StrategyBench.Lua.Library.Basic

open Program

/-! ## Errors -/

def raiseValue (args : List Value) : Body := do
  let level ← integerOr args 2 1
  raise (.value (argument args 1) (if 0 < level then level.toInt.toNat else 0))

def assert (args : List Value) : Body := do
  if (argument args 1).truthy then return args
  present args 1
  match args with
  | [_] => raise (.value (.ofString "assertion failed!") 1)
  | args => raise (.value (argument args 2) 1)

/-! ## Traversal -/

def next (args : List Value) : Body := do
  let t ← table args 1
  let key ← op (.next t (argument args 2))
  if key.isNil then return [.nil]
  return [key, ← rawGet t key]

def ipairs (args : List Value) : Body := do
  present args 1
  return [.native .ipairsStep, argument args 1, .int 0]

def ipairsStep (args : List Value) : Body := do
  let i ← integer args 2
  let v ← Operation.index (argument args 1) (.int (i + 1))
  return (if v.isNil then [.nil] else [.int (i + 1), v])

def pairs (args : List Value) : Body := do
  present args 1
  let v := argument args 1
  let handler ← metamethod v "__pairs"
  if handler.isNil then return [.native (.builtin .next), v, .nil]
  let results ← invoke handler [v]
  return [argument results 1, argument results 2, argument results 3]

/-! ## Tables without metamethods -/

def rawequal (args : List Value) : Body := do
  present args 1
  present args 2
  return [.bool ((argument args 1).rawEq (argument args 2))]

def rawget (args : List Value) : Body := do
  let t ← table args 1
  present args 2
  return [← rawGet t (argument args 2)]

def rawset (args : List Value) : Body := do
  let t ← table args 1
  present args 2
  present args 3
  rawSet t (argument args 2) (argument args 3)
  return [argument args 1]

def rawlen (args : List Value) : Body := do
  match argument args 1 with
  | .table t => return [.ofNat (← border t)]
  | .str s => return [.ofNat s.size]
  | _ => wrongType args 1 "table or string"

/-! ## Metatables -/

/-- A field of a metatable that protects it. -/
def protection (v : Value) : Program Empty Value := metamethod v "__metatable"

def getmetatable (args : List Value) : Body := do
  present args 1
  match ← metatable? (argument args 1) with
  | none => return [.nil]
  | some m => do
    let shown ← protection (argument args 1)
    return [if shown.isNil then .table m else shown]

def setmetatable (args : List Value) : Body := do
  let t ← table args 1
  let meta_ : Option Nat ← match (args[1]? : Option Value) with
    | some .nil => done none
    | some (.table m) => done (some m)
    | _ => wrongType args 2 "nil or table"
  if !(← protection (.table t)).isNil then raiseText "cannot change a protected metatable"
  let _ ← op (.setMetatable t meta_)
  return [.table t]

/-! ## Conversions -/

def isAlphanumeric (c : UInt8) : Bool :=
  (48 ≤ c && c ≤ 57) || (65 ≤ c && c ≤ 90) || (97 ≤ c && c ≤ 122)

def digitValue (c : UInt8) : Nat :=
  if c ≤ 57 then c.toNat - 48 else if c ≤ 90 then c.toNat - 55 else c.toNat - 87

/-- An integer in a base from 2 to 36, with blanks around it; it wraps around. -/
def integerIn (base : Nat) (cs : List UInt8) : Option Int64 :=
  let (negative, cs) := Numeral.afterSign (cs.dropWhile Numeral.isBlank)
  let (digits, rest) := cs.span isAlphanumeric
  if digits.isEmpty || digits.any (base ≤ digitValue ·) || rest.any (!Numeral.isBlank ·) then none
  else
    let n := digits.foldl (fun n c => (n * base + digitValue c) % twoTo 64) 0
    let i := Int64.ofNat n
    some (if negative then -i else i)

def numberOrNil : Option Number → Value
  | some n => .ofNumber n
  | none => .nil

def tonumber (args : List Value) : Body := do
  if absent args 2 then
    match argument args 1 with
    | .int i => return [.int i]
    | .float x => return [.float x]
    | .str s => return [numberOrNil (Numeral.ofBytes? s)]
    | _ => do
      present args 1
      return [.nil]
  else
    let base ← integer args 2
    match argument args 1 with
    | .str s => do
      check (2 ≤ base && base ≤ 36) 2 "base out of range"
      return [((integerIn base.toInt.toNat s.toList).map Value.int).getD .nil]
    | _ => wrongType args 1 "string"

def tostring (args : List Value) : Body := do
  present args 1
  answerText (← Operation.display (argument args 1))

def type (args : List Value) : Body := do
  present args 1
  return [.ofString (argument args 1).typeName]

/-! ## Arguments -/

def select (args : List Value) : Body := do
  let n : Int := args.length
  match argument args 1 with
  | .str s =>
    if Bytes.get? s 0 = some 35 then return [.ofNat (args.length - 1)]
    else choose n
  | _ => choose n
where
  choose (n : Int) : Body := do
    let i := (← integer args 1).toInt
    let i := if i < 0 then n + i else if n < i then n else i
    check (1 ≤ i) 1 "index out of range"
    return args.drop i.toNat

end StrategyBench.Lua.Library.Basic
