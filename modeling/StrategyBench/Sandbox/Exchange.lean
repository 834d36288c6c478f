/-
StrategyBench.Sandbox.Exchange — values of a script as JSON, and JSON as values of a script.

A table with a length, or one made from an array, is read as an array, index by index until the
first nil; any other table is an object. Metamethods have no part in it. What JSON cannot say is left out of tables, and null on its
own. A table inside itself is refused.
-/

import StrategyBench.Lua.Operation
import StrategyBench.Json.Basic
import StrategyBench.Field.Encoding
import StrategyBench.Number.Decimal

namespace StrategyBench.Sandbox.Exchange

open Lua Program

variable {ε : Type}

/-! ## Errors -/

def refuse {α : Type} (text : String) : Program ε α := raise (.host (.message text))

def malformed {α : Type} (text : String) : Program ε α := refuse ("deserialize error: " ++ text)

def recursive {α : Type} : Program ε α := malformed "recursive table detected"

/-- How many elements an array may have, which no script reaches. -/
def maxElements : Nat := twoTo 40

/-! ## From the script -/

/-- A value that is left out of tables. -/
def isSkipped : Value → Bool
  | .null | .failure _ | .closure _ | .native _ => true
  | _ => false

/-- A float with at least one place. -/
def floatName (x : Double) : String :=
  let s := Decimal.plain.write x
  if x.isFinite && !s.contains '.' then s ++ ".0" else s

/-- Whether a table is read as an array. -/
def isArray (arrayMeta : Nat) (t : Nat) : Program ε Bool := do
  if 0 < (← border t) then return true
  return (← metatable? (.table t)) = some arrayMeta

/-- What a key that is no text is called. -/
def keyName (arrayMeta : Nat) (key : Value) : Program ε String := do
  match key with
  | .bool b => return "boolean `" ++ (if b then "true" else "false") ++ "`"
  | .int i => return "integer `" ++ toString i.toInt ++ "`"
  | .float x => return "floating point `" ++ floatName x ++ "`"
  | .table t => return if ← isArray arrayMeta t then "sequence" else "map"
  | _ => return "byte array"

def keyText (arrayMeta : Nat) (key : Value) : Program ε String := do
  let wrong := do
    malformed (α := String) ("invalid type: " ++ (← keyName arrayMeta key) ++ ", expected a string key")
  match key with
  | .str s =>
    match Bytes.text? s with
    | some k => return k
    | none => wrong
  | _ => wrong

/-- Refuses a table that is being read already. -/
def unvisited (visited : List Nat) : Value → Program ε Unit
  | .table t => if visited.contains t then recursive else done ()
  | _ => done ()

/-- The elements of an array from index `i` on, last first. -/
def elements (read : Value → Program ε Json) (visited : List Nat) (t : Nat) (acc : List Json)
    (i : Int64) : Nat → Program ε (List Json)
  | 0 => done acc
  | n + 1 => do
    let v ← rawGet t (.int i)
    if v.isNil then return acc
    unvisited visited v
    if isSkipped v then elements read visited t acc (i + 1) n
    else
      let j ← read v
      elements read visited t (j :: acc) (i + 1) n

/-- The members of an object after a key. -/
def members (arrayMeta : Nat) (read : Value → Program ε Json) (visited : List Nat) (t : Nat)
    (acc : List (String × Json)) (key : Value) : Nat → Program ε (List (String × Json))
  | 0 => done acc
  | n + 1 => do
    let key ← op (.next t key)
    if key.isNil then return acc
    let v ← rawGet t key
    unvisited visited key
    unvisited visited v
    if isSkipped key || isSkipped v then members arrayMeta read visited t acc key n
    else
      let name ← keyText arrayMeta key
      let j ← read v
      members arrayMeta read visited t (Json.insertMember name j acc) key n

/-- A value as JSON; `visited` are the tables it is in, and so many levels are left. -/
def toJson (arrayMeta : Nat) : Nat → List Nat → Value → Program ε Json
  | 0, _, _ => recursive
  | depth + 1, visited, v =>
    match v with
    | .bool b => return .bool b
    | .int i => return .int i.toInt
    | .float x => return if x.isFinite then .float x else .null
    | .str s =>
      match Bytes.text? s with
      | some t => return .str t
      | none => malformed "invalid type: byte array, expected any valid JSON value"
    | .table t => do
      let visited := t :: visited
      let read := toJson arrayMeta depth visited
      if ← isArray arrayMeta t then
        return .arr (← elements read visited t [] 1 maxElements).reverse
      else return .obj (← members arrayMeta read visited t [] .nil maxElements)
    | _ => return .null

/-- A value as JSON. Tables inside each other are all different, so there are no more levels than tables. -/
def read (arrayMeta : Nat) (v : Value) : Program ε Json := do
  toJson arrayMeta ((← tableCount) + 1) [] v

/-! ## To the script -/

def ofInt (i : Int) : Value :=
  if Numeral.inRange i then .int (Int64.ofInt i) else .float (Double.ofInt i)

mutual
/-- JSON as a value; null has a value of its own, and arrays are marked as such. -/
def ofJson (arrayMeta : Nat) : Json → Program ε Value
  | .null => done .null
  | .bool b => done (.bool b)
  | .int i => done (ofInt i)
  | .float x => done (.float x)
  | .str s => do
    reserve (s.utf8ByteSize + 25)
    return .ofString s
  | .arr js => do
    let t ← newTable js.length 0
    fillElements arrayMeta t 1 js
    let _ ← op (.setMetatable t (some arrayMeta))
    return .table t
  | .obj ms => do
    let t ← newTable 0 ms.length
    fillMembers arrayMeta t ms
    return .table t

def fillElements (arrayMeta : Nat) (t : Nat) (i : Int64) : List Json → Program ε Unit
  | [] => done ()
  | j :: js => do
    let v ← ofJson arrayMeta j
    rawSet t (.int i) v
    fillElements arrayMeta t (i + 1) js

def fillMembers (arrayMeta : Nat) (t : Nat) : List (String × Json) → Program ε Unit
  | [] => done ()
  | (k, j) :: ms => do
    let v ← ofJson arrayMeta j
    rawSet t (.ofString k) v
    fillMembers arrayMeta t ms
end

/-- A field as a table of the script. -/
def ofField (arrayMeta : Nat) (f : Field) : Program ε Value := ofJson arrayMeta f.toJson

end StrategyBench.Sandbox.Exchange
