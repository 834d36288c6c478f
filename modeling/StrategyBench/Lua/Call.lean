/-
StrategyBench.Lua.Call — calls, errors on their way out, and the steps of a program.

An error takes one waiting function after the other off the machine. A function with variables to be
closed closes them first; an error in doing so takes the place of the one on its way. A function of
the host keeps no error of the script: it raises one of its own, with the same text.
-/

import StrategyBench.Lua.Memory

namespace StrategyBench.Lua

namespace Machine

variable {ε : Type}

/-! ## Limits -/

/-- How many calls from built-in functions and operators may be nested. -/
def maxDepth : Nat := 199

/-- How many places the stack may have. -/
def maxSlots : Nat := 1000000

/-- How long a chain of `__call` may be. -/
def maxCallChain : Nat := 200

/-! ## Raising -/

/-- What runs stops with a fault. -/
def stop (m : Machine ε) (fault : Fault) : Machine ε :=
  match m.running with
  | .program p _ => { m with running := .failed (if p.isHost then fault.atHost else fault) }
  | _ => { m with running := .failed fault }

def stopText (m : Machine ε) (s : ByteArray) : Machine ε := m.stop (.traced s)

/-- Raises an error from what runs; the words depend on what runs and what waits. -/
def raise (m : Machine ε) (r : Raise) : Machine ε :=
  match r with
  | .argument n what => m.stopText (m.argumentText n what)
  | .argumentType n expected actual =>
    m.stopText (m.argumentText n
      (Bytes.join [text (expected ++ " expected, got "), m.argumentType actual]))
  | .located s => m.stopText (m.whereAt 1 ++ s)
  | .value v level =>
    match v with
    | .str s => m.stopText (if level = 0 then s else m.whereAt level ++ s)
    | .failure e => m.stop (.host e)
    | v => { m with running := .program .wording do return [.str (← Operation.display v)] }
  | .runtime s => m.stopText (m.runtimeText [s])
  | .operand action v place =>
    m.stopText (m.runtimeText
      [text ("attempt to " ++ action ++ " a "), m.heap.typeName v, text " value", m.operandName place])
  | .noInteger place =>
    m.stopText (m.runtimeText
      [text "number", m.operandName place, text " has no integer representation"])
  | .comparison a b =>
    let s := m.heap.typeName a
    let t := m.heap.typeName b
    m.stopText (m.runtimeText
      (if Bytes.equal s t then [text "attempt to compare two ", s, text " values"]
       else [text "attempt to compare ", s, text " with ", t]))
  | .host e => m.stop (.host e)
  | .memory => m.stop .memory

/-! ## Functions of the script -/

/-- A function of the script waits for what it has started. -/
@[inline] def suspend (m : Machine ε) (f : Frame) (r : Resume) : Machine ε :=
  { m with waiting := .script f r :: m.waiting, running := .done [] }

@[inline] def goOn (m : Machine ε) (f : Frame) : Machine ε := { m with running := .script f }

/-- Raises an error from a function of the script. -/
def raiseIn (m : Machine ε) (f : Frame) (r : Raise) : Machine ε := (m.suspend f .discard).raise r

/-- An operator of a function of the script that takes more than a step. -/
def operate (m : Machine ε) (f : Frame) (r : Resume) (p : Program ε (List Value)) : Machine ε :=
  { m.suspend f r with running := .program .operation p }

/-- The stack grows to at least some places, twofold at a time. -/
def reserveSlots (m : Machine ε) (slots : Nat) : Machine ε :=
  let size := min maxSlots (max slots (2 * m.stackSize))
  { m with stackSize := size, heap := m.heap.charge (16 * (size - m.stackSize)) }

def enter (m : Machine ε) (c : Closure) (args : List Value) : Machine ε :=
  let f := Frame.enter c args
  let slots := m.slots + f.size
  if maxSlots < slots then m.stopText (m.runtimeText [text "stack overflow"])
  else
    let m := { m with slots := slots, running := .script f }
    if m.stackSize < slots then m.reserveSlots slots else m

/-- A function that has answered leaves the stack. -/
@[inline] def leave (m : Machine ε) (f : Frame) (results : List Value) : Machine ε :=
  { m with slots := m.slots - f.size, running := .done results }

/-! ## Calls -/

/-- What is called in the place of a value, with its arguments: a function, or nothing. -/
def callee? (h : Heap) (f : Value) (args : List Value) : Nat → Option (Value × List Value)
  | 0 => none
  | fuel + 1 =>
    if f.isFunction then some (f, args)
    else
      let handler := h.metamethod f (Bytes.ofString "__call")
      if handler.isNil then none else callee? h handler (f :: args) fuel

/-- A built-in function is about to run. -/
def enterNative (m : Machine ε) (lib : Library ε) (g : Native) (args : List Value) : Machine ε :=
  { m with heap := m.heap.spend Heap.callSteps, running := .program (.native g) (lib.run g args) }

/-- Calls a value for what waits. -/
def callValue (lib : Library ε) (m : Machine ε) (f : Value) (args : List Value) : Machine ε :=
  match f with
  | .closure id => m.enter (m.heap.closures.getD id {}) args
  | .native g => m.enterNative lib g args
  | f =>
    match callee? m.heap f args maxCallChain with
    | some (.closure id, args) => m.enter (m.heap.closures.getD id {}) args
    | some (.native g, args) => m.enterNative lib g args
    | _ => m.stopText (m.callRefusal f)

/-- Calls a value in the place of a function of the script, which has no more to do. -/
def tailCall (lib : Library ε) (m : Machine ε) (f : Frame) (g : Value) (args : List Value) :
    Machine ε :=
  match callee? m.heap g args maxCallChain with
  | some (.closure id, args) =>
    enter { m with slots := m.slots - f.size, running := .done [] } (m.heap.closures.getD id {}) args
  | some (g, args) => callValue lib (m.suspend f .answer) g args
  | none => callValue lib (m.suspend f .answer) g args

/-! ## Closing -/

/-- Calls what closes a value, which is told of an error. -/
def closeProgram (v error : Value) : Program ε (List Value) := do
  let handler ← Program.metamethod v "__close"
  Program.invoke handler [v, error]

/-- Closes the next variable of a function that is about to answer, or answers. -/
def answer (m : Machine ε) (f : Frame) (results : List Value) : Machine ε :=
  match f.closing with
  | [] => m.leave f results
  | (_, v) :: rest =>
    { m with
      waiting := .leaving { f with closing := rest } results :: m.waiting
      running := .program .operation (closeProgram v .nil) }

/-- Takes a function of the script off the machine because of an error. -/
def unwindFrame (m : Machine ε) (f : Frame) (fault : Fault) : Machine ε :=
  match f.closing with
  | [] => { m with slots := m.slots - f.size, running := .failed fault }
  | (_, v) :: rest =>
    { m with
      waiting := .failing { f with closing := rest } fault :: m.waiting
      running := .program .operation (closeProgram v fault.value) }

/-- Takes what has waited off the machine because of an error. -/
def unwind (m : Machine ε) (w : Waiting ε) (fault : Fault) : Machine ε :=
  match w with
  | .script f _ => m.unwindFrame f fault
  | .leaving f _ => m.unwindFrame f fault
  | .failing f _ => m.unwindFrame f fault
  | .program p _ reserved =>
    { m with
      heap := { m.heap with reserved := reserved }
      depth := m.depth - 1
      running := .failed (if p.isHost then fault.atHost else fault) }

/-! ## Results -/

/-- What has waited goes on with results. -/
def resume (m : Machine ε) (w : Waiting ε) (results : List Value) : Machine ε :=
  match w with
  | .script f r =>
    match r with
    | .results base n => m.goOn (f.setResults base n results)
    | .value dst => m.goOn (f.set dst (Program.first results))
    | .branch when_ target =>
      m.goOn (if (Program.first results).truthy == when_ then { f with pc := target } else f)
    | .discard => m.goOn f
    | .answer => m.leave f results
  | .program p next reserved =>
    { m with
      heap := { m.heap with reserved := reserved }
      depth := m.depth - 1
      running := .program p (next results) }
  | .leaving f answers => m.answer f answers
  | .failing f fault => m.unwindFrame f fault

/-! ## Programs -/

/-- Why a step on the heap is refused. -/
def keyRefusal (key : Value) : Option Raise :=
  match key with
  | .nil => some (.runtime (text "table index is nil"))
  | .float x => if x.isNaN then some (.runtime (text "table index is NaN")) else none
  | _ => none

def refusal? (h : Heap) : HeapOp → Option Raise
  | .set _ key _ => keyRefusal key
  | .next t key =>
    match (h.table t).next key.normalKey with
    | some _ => none
    | none => some (.runtime (text "invalid key to 'next'"))
  | _ => none

def tableOr : Option Nat → Value
  | some id => .table id
  | none => .nil

/-- A step on the heap that is not refused. -/
def applyOp (h : Heap) : HeapOp → Value × Heap
  | .get t key =>
    let key := key.normalKey
    ((h.table t).get key, h.modifyTable t (·.touch key))
  | .set t key v => (.nil, h.updateTable t (·.set key.normalKey v))
  | .border t =>
    let (n, table) := (h.table t).border
    (.ofNat n, h.modifyTable t fun _ => table)
  | .next t key => (((h.table t).next key.normalKey).getD .nil, h)
  | .metatable v => (tableOr (h.metatable? v), h)
  | .setMetatable t meta_ => (.nil, h.modifyTable t fun t => { t with meta? := meta_ })
  | .newTable dense keyed =>
    let (id, h) := h.addTable ((default : Table).resize dense keyed)
    (.table id, h)
  | .tableEnd => (.table h.tables.size, h)
  | .newCell v =>
    let (id, h) := h.addCell v
    (.ofNat id, h)
  | .getCell id => (h.cell id, h)
  | .setCell id v => (.nil, h.setCell id v)
  | .reserve bytes => (.nil, h.reserve bytes)
  | .spend steps => (.nil, h.spend steps)

/-- Takes memory for what a program is making, if there is enough. -/
def reserveFor (lib : Library ε) (m : Machine ε) (bytes : Nat) : Option (Machine ε) :=
  let m := if m.heap.threshold < m.heap.used + bytes then m.measure lib else m
  let m := { m with heap := m.heap.reserve bytes }
  if m.heap.overLimit then none else some m

/-- A program calls a function and waits. -/
def callFrom (lib : Library ε) (m : Machine ε) (p : Purpose)
    (next : List Value → Program ε (List Value)) (f : Value) (args : List Value) : Machine ε :=
  let m :=
    { m with
      waiting := .program p next m.heap.reserved :: m.waiting
      depth := m.depth + 1
      running := .done [] }
  if maxDepth ≤ m.depth then m.stopText (m.runtimeText [text "C stack overflow"])
  else callValue lib m f args

/-- A program has ended; nothing of what it made is its own any more. -/
def finish (m : Machine ε) (p : Purpose) (results : List Value) : Machine ε :=
  let m := if m.depth = 0 then { m with heap := { m.heap with reserved := 0 } } else m
  match p with
  | .wording => m.stopText (((Program.first results).text?).getD ByteArray.empty)
  | _ => { m with running := .done results }

/-- One step of a program, which is not held by the machine. -/
def advance (lib : Library ε) (m : Machine ε) (p : Purpose) (rest : Program ε (List Value)) :
    Machine ε :=
  match rest with
  | .done results => m.finish p results
  | .fail r => raise { m with running := .program p (.done []) } r
  | .heap (.reserve bytes) next =>
    match reserveFor lib { m with running := .program p (.done []) } bytes with
    | some m => { m with running := .program p (next .nil) }
    | none => raise { m with running := .program p (.done []) } .memory
  | .heap op next =>
    match refusal? m.heap op with
    | some r => raise { m with running := .program p (.done []) } r
    | none =>
      let (v, heap) := applyOp (m.heap.spend Heap.programSteps) op
      { m with heap := heap, running := .program p (next v) }
  | .call f args next => callFrom lib m p next f args
  | .emit e next =>
    { m with
      heap := m.heap.spend Heap.effectSteps
      effects := e :: m.effects
      running := .program p (next ()) }

end Machine
end StrategyBench.Lua
