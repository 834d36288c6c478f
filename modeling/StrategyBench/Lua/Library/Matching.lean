/-
StrategyBench.Lua.Library.Matching — the functions of `string` that take patterns.
-/

import StrategyBench.Lua.Library.Arguments
import StrategyBench.Lua.Pattern

namespace StrategyBench.Lua.Library.Matching

open Program

/-! ## Captures -/

def captured (r : Except String Value) : Program Empty Value :=
  match r with
  | .ok v => done v
  | .error text => raiseText text

def captures (m : Pattern.Match) (s : ByteArray) (whole : Bool) : Program Empty (List Value) :=
  match m.values s whole with
  | .ok vs => done vs
  | .error text => raiseText text

/-! ## Searching -/

/-- The two places that a plain search answers. -/
def plainPlaces (s needle : ByteArray) (start : Nat) : List Value :=
  match Bytes.find? s needle start with
  | some i => [.ofNat (i + 1), .ofNat (i + needle.size)]
  | none => [.nil]

/-- How many tests of a pattern are made in a step. -/
def testsPerStep : Nat := 8

/-- What a search has found; its tests take steps. -/
def searched (r : Pattern.Search) : Program Empty (Option Pattern.Match) :=
  match r with
  | .absent tests => do
    spend (tests / testsPerStep)
    return none
  | .found m tests => do
    spend (tests / testsPerStep)
    return some m
  | .faulty text _ => raiseText text

def find (args : List Value) : Body := do
  let s ← string args 1
  let p ← string args 2
  let start := startPlace (← integerOr args 3 1) s.size - 1
  if s.size < start then return [.nil]
  if (argument args 4).truthy || Pattern.isPlain p then
    readThrough (s.size - start)
    return plainPlaces s p start
  match ← searched ((Pattern.ofBytes p).search s start) with
  | none => return [.nil]
  | some m => return .ofNat (m.start + 1) :: .ofNat m.stop :: (← captures m s false)

def match_ (args : List Value) : Body := do
  let s ← string args 1
  let p ← string args 2
  let start := startPlace (← integerOr args 3 1) s.size - 1
  if s.size < start then return [.nil]
  match ← searched ((Pattern.ofBytes p).search s start) with
  | none => return [.nil]
  | some m => captures m s true

/-! ## All matches -/

/-- The first match from a place on that does not end where the last one did. -/
def nextMatch (p : Pattern) (s : ByteArray) (last : Option Nat) (i tests : Nat) : Nat → Pattern.Search
  | 0 => .absent tests
  | n + 1 =>
    match p.attemptAt s i tests with
    | .matched stop caps tests =>
      if last = some stop then nextMatch p s last (i + 1) tests n else .found ⟨i, stop, caps⟩ tests
    | .failed tests => nextMatch p s last (i + 1) tests n
    | .faulty text tests => .faulty text tests

/-- A place that a cell holds; nil is none. -/
def placeOf : Value → Option Nat
  | .int i => some i.toUInt64.toNat
  | _ => none

def gmatch (args : List Value) : Body := do
  let s ← string args 1
  let p ← string args 2
  let start := startPlace (← integerOr args 3 1) s.size - 1
  reserve 600
  let place ← op (.newCell (.ofNat (min start (s.size + 1))))
  let last ← op (.newCell .nil)
  return [.native (.gmatchStep s p ((placeOf place).getD 0) ((placeOf last).getD 0))]

def gmatchStep (s p : ByteArray) (place last : Nat) : Body := do
  let start := (placeOf (← op (.getCell place))).getD 0
  let lastStop := placeOf (← op (.getCell last))
  match ← searched (nextMatch (Pattern.unanchored p) s lastStop start 0 (s.size + 1 - start)) with
  | none => return []
  | some m => do
    let _ ← op (.setCell place (.ofNat m.stop))
    let _ ← op (.setCell last (.ofNat m.stop))
    captures m s true

/-! ## Replacing -/

/-- A replacement text: `%` and a digit stand for a capture, `%0` for the match. -/
def expand (m : Pattern.Match) (s : ByteArray) : List UInt8 → Except String (List UInt8)
  | [] => .ok []
  | 37 :: c :: rest => do
    let part ← if c == 37 then pure [37]
      else if c == 48 then pure (s.extract m.start m.stop).toList
      else if 49 ≤ c && c ≤ 57 then do
        let v ← m.capture s (c.toNat - 49)
        pure (v.text?.getD ByteArray.empty).toList
      else .error "invalid use of '%' in replacement string"
    return part ++ (← expand m s rest)
  | [37] => .error "invalid use of '%' in replacement string"
  | c :: rest => do return c :: (← expand m s rest)

/-- What a match is replaced by; `none` keeps it. -/
def replacement (by_ : Value) (s : ByteArray) (m : Pattern.Match) :
    Program Empty (Option ByteArray) := do
  let kept := fun v : Value =>
    if !v.truthy then done none
    else
      match v.text? with
      | some t => done (some t)
      | none => raiseText ("invalid replacement value (a " ++ v.typeName ++ ")")
  match by_ with
  | .table _ => kept (← Operation.index by_ (← captured (m.capture s 0)))
  | .closure _ | .native _ => kept (← invoke₁ by_ (← captures m s true))
  | by_ =>
    let t := by_.text?.getD ByteArray.empty
    if !t.toList.contains 37 then return some t
    match expand m s t.toList with
    | .ok bs => return some (Bytes.ofList bs)
    | .error text => raiseText text

/-- What has been replaced so far. -/
structure Replacing where
  /-- The parts of the result, last first. -/
  parts : List ByteArray := []
  /-- Where the subject has been taken up to. -/
  taken : Nat := 0
  last : Option Nat := none
  count : Nat := 0
  changed : Bool := false

def Replacing.finish (r : Replacing) (s : ByteArray) : Body := do
  if r.changed then
    let result := Bytes.join ((s.extract r.taken s.size :: r.parts).reverse)
    reserve (result.size + 25)
    return [.str result, .ofNat r.count]
  else return [.str s, .ofNat r.count]

/-- Replaces matches from place `i` on, at most `limit` in all. -/
def replaceFrom (p : Pattern) (by_ : Value) (s : ByteArray) (limit : Nat) (r : Replacing) (i : Nat) :
    Nat → Body
  | 0 => r.finish s
  | n + 1 =>
    if limit ≤ r.count then r.finish s
    else do
      let found := if p.anchored then p.searchAt s i
        else nextMatch p s r.last i 0 (s.size + 1 - i)
      match ← searched found with
      | none => r.finish s
      | some m => do
        let new? ← replacement by_ s m
        let new := new?.getD (s.extract m.start m.stop)
        reserve (new.size + (m.start - r.taken))
        let r : Replacing :=
          { parts := new :: s.extract r.taken m.start :: r.parts
            taken := m.stop
            last := some m.stop
            count := r.count + 1
            changed := r.changed || new?.isSome }
        if p.anchored then r.finish s else replaceFrom p by_ s limit r m.stop n

def gsub (args : List Value) : Body := do
  let s ← string args 1
  let p ← string args 2
  let limit ← integerOr args 4 (Int64.ofNat (s.size + 1))
  let by_ := argument args 3
  match by_ with
  | .int _ | .float _ | .str _ | .table _ | .closure _ | .native _ => do
    let p := Pattern.ofBytes p
    replaceFrom p by_ s (if limit < 0 then 0 else limit.toInt.toNat) {} 0 (s.size + 2)
  | _ => wrongType args 3 "string/function/table"

end StrategyBench.Lua.Library.Matching
