/-
StrategyBench.Lua.Table — tables: a dense part for keys from one on and an ordered part for the rest.

How large the two parts are decides which border `length` answers for a table with holes, so the
sizes follow fixed rules: the ordered part holds a power of two of keys, and when it is full both
parts are sized anew by how many integer keys there are. `limit` is where the last border was seen
in the dense part. Keys whose value is nil keep their place until then.
-/

import StrategyBench.Lua.Value
import Std.Data.TreeMap

namespace StrategyBench.Lua

abbrev KeyMap := Std.TreeMap Value Value Value.keyOrder

structure Table where
  dense : Array Value := #[]
  /-- Where the dense part is taken to end; its size, or a hint below it. -/
  limit : Nat := 0
  other : KeyMap := {}
  /-- How many keys the ordered part can hold. -/
  capacity : Nat := 0
  meta? : Option Nat := none

instance : Inhabited Table := ⟨{}⟩

namespace Table

/-! ## Reading -/

def keyed (t : Table) (k : Value) : Value := (t.other.get? k).getD .nil

/-- The value at place `n` of the dense part, counted from one. -/
@[inline] def denseAt (t : Table) (n : Nat) : Value := t.dense.getD (n - 1) .nil

/-- Whether an integer key falls into the dense part. -/
@[inline] def inDense (t : Table) (i : Int64) : Bool :=
  0 < i && i.toUInt64.toNat ≤ t.dense.size

def getInt (t : Table) (i : Int64) : Value :=
  if t.inDense i then t.denseAt i.toUInt64.toNat else t.keyed (.int i)

/-- The value of a key that is normal. -/
def get (t : Table) (k : Value) : Value :=
  match k with
  | .int i => t.getInt i
  | .nil => .nil
  | .float x => if x.isNaN then .nil else t.keyed k
  | k => t.keyed k

/-- A key past the hint, but in the dense part, moves the hint. -/
@[inline] def touch (t : Table) (k : Value) : Table :=
  if t.limit = t.dense.size then t
  else
    match k with
    | .int i =>
      if t.inDense i && t.limit < i.toUInt64.toNat then { t with limit := i.toUInt64.toNat } else t
    | _ => t

/-! ## Sizes -/

def powerFrom (p n : Nat) : Nat → Nat
  | 0 => p
  | fuel + 1 => if n ≤ p then p else powerFrom (2 * p) n fuel

/-- The least power of two that is not below `n`. -/
def powerOfTwo (n : Nat) : Nat := powerFrom 1 n 64

def isPower (n : Nat) : Bool := n ≠ 0 && powerOfTwo n = n

/-- The exponent of `powerOfTwo n`, for `n > 0`. -/
def ceilLog (n : Nat) : Nat := (powerOfTwo n).log2

def bump (counts : Array Nat) (i : Nat) : Array Nat := counts.modify i (· + 1)

/-- Counts an integer key in the range `(2 ^ (i-1), 2 ^ i]` it falls into. -/
def countKey (counts : Array Nat) (k : Value) : Array Nat × Bool :=
  match k with
  | .int i => if 0 < i && i.toInt ≤ twoTo 31 then (bump counts (ceilLog i.toNatClampNeg), true) else (counts, false)
  | _ => (counts, false)

def countDense (values : Array Value) (counts : Array Nat) : Array Nat :=
  (values.foldl (fun (acc : Array Nat × Nat) v =>
    (if v.isNil then acc.1 else bump acc.1 (ceilLog acc.2), acc.2 + 1)) (counts, 1)).1

/-- The greatest power of two more than half of whose keys are there; and how many they are. -/
def denseSize (counts : Array Nat) (integers : Nat) : Nat × Nat :=
  let step := fun (acc : Nat × Nat × Nat) (i : Nat) =>
    let (seen, size, taken) := acc
    if integers > twoTo i / 2 then
      let seen := seen + counts.getD i 0
      if seen > twoTo i / 2 then (seen, twoTo i, seen) else (seen, size, taken)
    else (seen, size, taken)
  let (_, size, taken) := (List.range 32).foldl step (0, 0, 0)
  (size, taken)

def roomFor (keys : Nat) : Nat := if keys = 0 then 0 else powerOfTwo keys

/-- Puts a key that is normal into its part; in the ordered part without regard to its capacity. -/
def place (t : Table) (k v : Value) : Table :=
  match k with
  | .int i =>
    if t.inDense i then { t with dense := putAt t.dense (i.toUInt64.toNat - 1) v }
    else { t with other := t.other.insert k v }
  | k => { t with other := t.other.insert k v }

/-- Puts values under the integers from `i` on. -/
def placeFrom (t : Table) (i : Nat) : List Value → Table
  | [] => t
  | v :: vs => placeFrom (t.place (.int (Int64.ofNat i)) v) (i + 1) vs

/-- Gives both parts their sizes; what leaves one of them goes to the other. -/
def resize (t : Table) (dense keys : Nat) : Table :=
  let kept := t.dense.extract 0 dense
  let leaving := t.dense.extract dense t.dense.size
  let base : Table :=
    { t with
      dense := kept ++ Array.replicate (dense - kept.size) .nil
      limit := dense
      other := {}
      capacity := roomFor keys }
  let put := fun (t : Table) (k v : Value) => if v.isNil then t else t.place k v
  let (base, _) := leaving.foldl
    (fun (acc : Table × Nat) v => (put acc.1 (.int (Int64.ofNat acc.2)) v, acc.2 + 1)) (base, dense + 1)
  t.other.foldl put base

/-- Sizes both parts for the keys that are there and one more. -/
def rehash (t : Table) (extra : Value) : Table :=
  let counts := countDense t.dense (Array.replicate 33 0)
  let inDense := counts.foldl (· + ·) 0
  let (counts, integers, keys) := t.other.foldl
    (fun (acc : Array Nat × Nat × Nat) k v =>
      if v.isNil then acc
      else
        let (counts, counted) := countKey acc.1 k
        (counts, acc.2.1 + (if counted then 1 else 0), acc.2.2 + 1))
    (counts, inDense, inDense)
  let (counts, counted) := countKey counts extra
  let integers := integers + (if counted then 1 else 0)
  let (size, taken) := denseSize counts integers
  t.resize size (keys + 1 - taken)

/-! ## Writing -/

/-- Puts a value under a key that is normal, not nil and not "not a number". -/
def set (t : Table) (k v : Value) : Table :=
  let t := t.touch k
  match k with
  | .int i =>
    if t.inDense i then { t with dense := putAt t.dense (i.toUInt64.toNat - 1) v }
    else insertKey t k v
  | k => insertKey t k v
where
  insertKey (t : Table) (k v : Value) : Table :=
    if t.other.contains k then { t with other := t.other.insert k v }
    else if v.isNil then t
    else if t.other.size < t.capacity then { t with other := t.other.insert k v }
    else (t.rehash k).place k v

/-- Puts values from place `start` on; the dense part grows to hold them. -/
def setFrom (t : Table) (start : Nat) (values : List Value) : Table :=
  let last := start + values.length - 1
  let t := if last > t.dense.size then t.resize last t.capacity else t
  t.placeFrom start values

/-! ## Length -/

/-- A border between `i`, which is there (or zero), and `j`, which is not. -/
def searchBorder (present : Nat → Bool) (i j : Nat) : Nat → Nat
  | 0 => i
  | fuel + 1 =>
    if j - i ≤ 1 then i
    else
      let m := (i + j) / 2
      if present m then searchBorder present m j fuel else searchBorder present i m fuel

def greatestInt : Nat := twoTo 63 - 1

/-- A border past `i`, which is there: doubles until a key is missing. -/
def doubleBorder (present : Nat → Bool) (i : Nat) : Nat → Nat
  | 0 => i
  | fuel + 1 =>
    let j := if i ≤ greatestInt / 2 then 2 * i else greatestInt
    if present j then (if j = greatestInt then j else doubleBorder present j fuel)
    else searchBorder present i j 64

/-- A border, and the table with the hint moved to it. -/
def border (t : Table) : Nat × Table :=
  let present := fun n : Nat => !(t.getInt (Int64.ofNat n)).isNil
  let size := t.dense.size
  if t.limit > 0 && !present t.limit then
    if t.limit ≥ 2 && present (t.limit - 1) then
      let hint := if isPower size && !isPower (t.limit - 1) then t.limit - 1 else t.limit
      (t.limit - 1, { t with limit := hint })
    else
      let b := searchBorder present 0 t.limit 64
      (b, if isPower size && b > size / 2 then { t with limit := b } else t)
  else if t.limit ≠ size && !present (t.limit + 1) then (t.limit, t)
  else if t.limit ≠ size && !present size then
    let b := searchBorder present t.limit size 64
    (b, { t with limit := b })
  else if t.capacity = 0 || !present (size + 1) then (size, t)
  else (doubleBorder present (if size = 0 then 1 else size) 70, t)

/-! ## Traversal -/

/-- The first place from `n` on, counted from one, of the dense part that holds a value. -/
def denseFrom (t : Table) (n : Nat) : Nat → Option Nat
  | 0 => none
  | fuel + 1 => if (t.denseAt n).isNil then denseFrom t (n + 1) fuel else some n

def keyedFrom (t : Table) (k? : Option Value) : Nat → Option Value
  | 0 => none
  | fuel + 1 =>
    let entry? := match k? with
      | none => t.other.minEntry?
      | some k => t.other.getEntryGT? k
    match entry? with
    | none => none
    | some (k, v) => if v.isNil then keyedFrom t (some k) fuel else some k

/-- The key after a key (the first one after nil), nil after the last; `none` if there is no such key. -/
def next (t : Table) (k : Value) : Option Value :=
  let others := fun k? => (t.keyedFrom k? (t.other.size + 1)).getD .nil
  let denseOr := fun n : Nat =>
    match t.denseFrom n (t.dense.size + 1 - n) with
    | some n => Value.int (Int64.ofNat n)
    | none => others none
  match k with
  | .nil => some (denseOr 1)
  | .int i =>
    if t.inDense i then some (denseOr (i.toUInt64.toNat + 1))
    else if t.other.contains k then some (others (some k)) else none
  | .float x => if x.isNaN then none else if t.other.contains k then some (others (some k)) else none
  | k => if t.other.contains k then some (others (some k)) else none

/-- The memory that a table takes: itself, and its two parts. -/
def bytes (t : Table) : Nat := 56 + 16 * t.dense.size + 24 * t.capacity

end Table
end StrategyBench.Lua
