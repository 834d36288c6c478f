/-
StrategyBench.Lua.Heap — the objects of a running script, and the memory they take.

Memory is counted as it is taken; only when the count passes the limit is it measured what can still
be reached, and what cannot is dropped.
-/

import StrategyBench.Lua.Table
import StrategyBench.Lua.Code
import Std.Data.TreeSet

namespace StrategyBench.Lua

structure Closure where
  proto : Proto := {}
  upvalues : Array Nat := #[]
  deriving Inhabited

structure Heap where
  tables : Array Table := #[]
  cells : Array Value := #[]
  closures : Array Closure := #[]
  /-- The metatable that all strings have. -/
  stringMeta : Option Nat := none
  /-- Bytes counted since the last measurement, and with it. -/
  used : Nat := 0
  /-- The greatest number of bytes; `0` is no limit. -/
  limit : Nat := 0
  /-- The number of bytes past which it is measured what can be reached. -/
  threshold : Nat := 0
  /-- Bytes that programs have taken for what they are making; they are counted with the rest. -/
  reserved : Nat := 0
  /-- Numbers of objects that have been dropped; new objects take them. -/
  freeTables : List Nat := []
  freeCells : List Nat := []
  freeClosures : List Nat := []
  /-- Work that steps on large objects have taken beyond one step each, in steps. -/
  effort : Nat := 0
  deriving Inhabited

namespace Heap

/-! ## Effort -/

/-- How many bytes are made in a step. -/
def bytesPerStep : Nat := 512

/-- How many objects are looked at in a step. -/
def objectsPerStep : Nat := 8

/-- What a step of a program on the heap takes beyond one step. -/
def programSteps : Nat := 2

/-- What making an object takes beyond one step. -/
def objectSteps : Nat := 4

/-- What a piece of a text takes beyond one step. -/
def pieceSteps : Nat := 2

/-- What moving a value of a list takes beyond one step. -/
def valueSteps : Nat := 2

/-- How many bytes are gone through one by one in a step. -/
def bytesReadPerStep : Nat := 4

/-- What calling a built-in function takes beyond one step. -/
def callSteps : Nat := 8

/-- What an effect takes beyond one step. -/
def effectSteps : Nat := 120

/-- Counts work beyond one step. -/
@[inline] def spend (h : Heap) (steps : Nat) : Heap := { h with effort := h.effort + steps }

/-- Counts memory. -/
@[inline] def charge (h : Heap) (bytes : Nat) : Heap := { h with used := h.used + bytes }

/-! ## Objects -/

@[inline] def table (h : Heap) (id : Nat) : Table := h.tables.getD id {}

@[inline] def modifyTable (h : Heap) (id : Nat) (f : Table → Table) : Heap :=
  { h with tables := h.tables.modify id f }

/-- Changes a table and counts the memory by which it grows. -/
@[inline] def updateTable (h : Heap) (id : Nat) (f : Table → Table) : Heap :=
  let before := (h.table id).bytes
  let h := h.modifyTable id f
  let after := (h.table id).bytes
  { h with used := h.used + (after - before) }

def addTable (h : Heap) (t : Table) : Nat × Heap :=
  let h := (h.spend objectSteps).charge t.bytes
  match h.freeTables with
  | id :: rest => (id, { h with tables := putAt h.tables id t, freeTables := rest })
  | [] => (h.tables.size, { h with tables := h.tables.push t })

def addCell (h : Heap) (v : Value) : Nat × Heap :=
  let h := (h.spend objectSteps).charge 40
  match h.freeCells with
  | id :: rest => (id, { h with cells := putAt h.cells id v, freeCells := rest })
  | [] => (h.cells.size, { h with cells := h.cells.push v })

def addClosure (h : Heap) (c : Closure) : Nat × Heap :=
  let h := (h.spend objectSteps).charge (32 + 8 * c.upvalues.size)
  match h.freeClosures with
  | id :: rest =>
    (id, { h with closures := putAt h.closures id c, freeClosures := rest })
  | [] => (h.closures.size, { h with closures := h.closures.push c })

@[inline] def cell (h : Heap) (id : Nat) : Value := h.cells.getD id .nil

@[inline] def setCell (h : Heap) (id : Nat) (v : Value) : Heap :=
  { h with cells := putAt h.cells id v }

@[inline] def full (h : Heap) : Bool := h.threshold < h.used

/-- Takes memory for what a program is making. -/
def reserve (h : Heap) (bytes : Nat) : Heap :=
  { h with
    used := h.used + bytes
    reserved := h.reserved + bytes
    effort := h.effort + bytes / bytesPerStep + pieceSteps }

def overLimit (h : Heap) : Bool := h.limit ≠ 0 && h.limit < h.used

/-- Where a heap without a limit is first measured. -/
def firstThreshold : Nat := 256 * 1024 * 1024

/-- An empty heap with a limit. -/
def withLimit (limit : Nat) : Heap :=
  { limit := limit, threshold := if limit = 0 then firstThreshold else limit }

/-! ## Metatables -/

def metatable? (h : Heap) : Value → Option Nat
  | .table id => (h.table id).meta?
  | .str _ => h.stringMeta
  | _ => none

/-- A metamethod of a value, nil where it has none. -/
def metamethod (h : Heap) (v : Value) (event : ByteArray) : Value :=
  match h.metatable? v with
  | some m => (h.table m).keyed (.str event)
  | none => .nil

/-- The type of a value as messages name it: a metatable may give another name. -/
def typeName (h : Heap) (v : Value) : ByteArray :=
  match v with
  | .table _ =>
    match h.metamethod v (Bytes.ofString "__name") with
    | .str s => s
    | _ => Bytes.ofString "table"
  | v => Bytes.ofString v.typeName

/-! ## Measuring -/

/-- What has been reached, and the values still to be looked into. -/
structure Survey where
  tables : Array Bool
  cells : Array Bool
  closures : Array Bool
  strings : Std.TreeSet ByteArray Bytes.shortlex := {}
  bytes : Nat

/-- Memory of a string on its own. -/
def stringBytes (s : ByteArray) : Nat := 25 + s.size

/-- Equal strings are counted once. -/
def visitString (b : ByteArray) (s : Survey) : Survey :=
  if s.strings.contains b then s
  else { s with strings := s.strings.insert b, bytes := s.bytes + stringBytes b }

def visitValue (v : Value) (work : List Value) (s : Survey) : List Value × Survey :=
  match v with
  | .str b => (work, visitString b s)
  | .table id => if s.tables.getD id true then (work, s) else (v :: work, { s with tables := putAt s.tables id true })
  | .closure id =>
    if s.closures.getD id true then (work, s)
    else (v :: work, { s with closures := putAt s.closures id true })
  | .native (.gmatchStep a b place last) =>
    let s := visitString a (visitString b s)
    (work, { s with
      bytes := s.bytes + 100
      cells := putAt (putAt s.cells place true) last true })
  | _ => (work, s)

def visitAll (vs : Array Value) (work : List Value) (s : Survey) : List Value × Survey :=
  vs.foldl (fun acc v => visitValue v acc.1 acc.2) (work, s)

/-- A cell that has been reached, and what it holds. -/
def visitCell (h : Heap) (id : Nat) (work : List Value) (s : Survey) : List Value × Survey :=
  if s.cells.getD id true then (work, s)
  else visitValue (h.cell id) work
    { s with cells := putAt s.cells id true, bytes := s.bytes + 40 }

/-- Follows references from what is on the list. -/
def follow (h : Heap) : Nat → List Value → Survey → Survey
  | 0, _, s => s
  | _, [], s => s
  | fuel + 1, .table id :: work, s =>
    let t := h.table id
    let s := { s with bytes := s.bytes + t.bytes }
    let (work, s) := visitAll t.dense work s
    let (work, s) := t.other.foldl
      (fun acc k v => if v.isNil then acc else
        let (work, s) := visitValue k acc.1 acc.2
        visitValue v work s) (work, s)
    let (work, s) := match t.meta? with
      | some m => visitValue (.table m) work s
      | none => (work, s)
    follow h fuel work s
  | fuel + 1, .closure id :: work, s =>
    let c := h.closures.getD id {}
    let s := { s with bytes := s.bytes + 32 + 8 * c.upvalues.size }
    let (work, s) := c.upvalues.foldl (fun acc u => visitCell h u acc.1 acc.2) (work, s)
    follow h fuel work s
  | fuel + 1, _ :: work, s => follow h fuel work s

/-- What can be reached from some values and cells; `base` is the memory that is taken besides. -/
def survey (h : Heap) (roots : List Value) (rootCells : List Nat) (base : Nat) : Survey :=
  let start : Survey :=
    { tables := Array.replicate h.tables.size false
      cells := Array.replicate h.cells.size false
      closures := Array.replicate h.closures.size false
      bytes := base }
  let roots := (h.stringMeta.map Value.table).toList ++ roots
  let (work, s) := roots.foldl (fun acc v => visitValue v acc.1 acc.2) (([] : List Value), start)
  let (work, s) := rootCells.foldl (fun acc c => visitCell h c acc.1 acc.2) (work, s)
  follow h (h.tables.size + h.closures.size + 1) work s

def dropUnmarked {α : Type} [Inhabited α] (objects : Array α) (marks : Array Bool) : Array α :=
  objects.mapIdx fun i x => if marks.getD i false then x else default

/-- The places without a mark. -/
def unmarked (marks : Array Bool) : List Nat :=
  (marks.foldl (fun (acc : List Nat × Nat) m => (if m then acc.1 else acc.2 :: acc.1, acc.2 + 1)) ([], 0)).1

/-- Takes what a survey has measured as what is used, and looks again at twice as much. -/
def measured (h : Heap) (s : Survey) : Heap :=
  let used := s.bytes + h.reserved
  { h with
    used := used
    threshold := if h.limit = 0 then max h.threshold (2 * used) else h.limit
    effort := h.effort + (h.tables.size + h.cells.size + h.closures.size) / objectsPerStep }

/-- Drops what a survey has not reached. -/
def dropUnreached (h : Heap) (s : Survey) : Heap :=
  { h with
    tables := dropUnmarked h.tables s.tables
    cells := dropUnmarked h.cells s.cells
    closures := dropUnmarked h.closures s.closures
    freeTables := unmarked s.tables
    freeCells := unmarked s.cells
    freeClosures := unmarked s.closures }

end Heap
end StrategyBench.Lua
