/-
StrategyBench.Lua.Execute — the instructions.

What an instruction can do at once, it does; what may call a function of the script goes through a
program while the function waits.
-/

import StrategyBench.Lua.Call

namespace StrategyBench.Lua

/-! ## Numeric loops -/

/-- A numeric loop that is about to start. -/
inductive Loop
  /-- The first value, and how many more rounds there are. -/
  | ints (start step : Int64) (rounds : UInt64)
  | floats (start limit step : Double)
  /-- There is no round. -/
  | empty
  | wrongValue (what : String) (v : Value)
  | zeroStep

namespace Loop

/-- The last integer that a loop may reach, if it has a round at all. -/
inductive Limit
  | upTo (i : Int64)
  | unreachable
  | wrongValue

def clipped (positive ascending : Bool) : Limit :=
  if positive then (if ascending then .upTo (Int64.ofInt Numeral.maxInt) else .unreachable)
  else if ascending then .unreachable else .upTo (Int64.ofInt Numeral.minInt)

def limitOf (v : Value) (ascending : Bool) : Limit :=
  match v.toNumber? with
  | some (.int i) => .upTo i
  | some (.float x) =>
    match (if ascending then Numeral.floorInt? x else Numeral.ceilInt? x) with
    | some i =>
      if Numeral.inRange i then .upTo (Int64.ofInt i) else clipped (0 < i) ascending
    | none => clipped (!x.isNaN && !x.isNegative) ascending
  | none => .wrongValue

/-- The rounds after the first one of a loop over integers. -/
def roundsAfter (start limit step : Int64) : UInt64 :=
  if 0 < step then (limit.toUInt64 - start.toUInt64) / step.toUInt64
  else (start.toUInt64 - limit.toUInt64) / ((-(step + 1)).toUInt64 + 1)

def overInts (start : Int64) (limit : Value) (step : Int64) : Loop :=
  if step = 0 then zeroStep
  else
    match limitOf limit (0 < step) with
    | .wrongValue => .wrongValue "limit" limit
    | .unreachable => .empty
    | .upTo n =>
      if (if 0 < step then n < start else start < n) then .empty
      else .ints start step (roundsAfter start n step)

def overFloats (start limit step : Value) : Loop :=
  match limit.toDouble?, step.toDouble?, start.toDouble? with
  | none, _, _ => .wrongValue "limit" limit
  | _, none, _ => .wrongValue "step" step
  | _, _, none => .wrongValue "initial value" start
  | some n, some d, some x =>
    if d.isZero then zeroStep
    else if (if Double.zero.lt d then n.lt x else x.lt n) then .empty
    else .floats x n d

def prepare (start limit step : Value) : Loop :=
  match start, step with
  | .int i, .int d => overInts i limit d
  | _, _ => overFloats start limit step

end Loop

namespace Machine

variable {ε : Type}

/-! ## Operands -/

@[inline] def cellAt (h : Heap) (f : Frame) (r : Reg) : Value :=
  match f.get r with
  | .int i => h.cell i.toUInt64.toNat
  | _ => .nil

@[inline] def operand (h : Heap) (f : Frame) : Operand → Value
  | .reg r => f.get r
  | .const v => v
  | .upvalue i => h.cell (f.upvalues.getD i 0)
  | .cell r => cellAt h f r

def one (p : Program ε Value) : Program ε (List Value) := do return [← p]

def truth (p : Program ε Bool) : Program ε (List Value) := do return [.bool (← p)]

def nothing (p : Program ε Unit) : Program ε (List Value) := do
  p
  return []

/-! ## Tables -/

/-- `o[key]`, into a register. -/
def indexInto (m : Machine ε) (f : Frame) (dst : Reg) (o key : Value) : Machine ε :=
  match o with
  | .table id =>
    let k := key.normalKey
    let v := (m.heap.table id).get k
    if v.isNil && (m.heap.table id).meta?.isSome then
      m.operate f (.value dst) (one (Operation.index o key))
    else if (m.heap.table id).limit = (m.heap.table id).dense.size then m.goOn (f.set dst v)
    else { m with heap := m.heap.modifyTable id (·.touch k), running := .script (f.set dst v) }
  | o => m.operate f (.value dst) (one (Operation.index o key))

def storeAt (m : Machine ε) (f : Frame) (o key value : Value) : Machine ε :=
  match o with
  | .table id =>
    if (m.heap.table id).meta?.isSome then
      m.operate f .discard (nothing (Operation.setIndex o key value))
    else
      match keyRefusal key with
      | some r => m.raiseIn f r
      | none =>
        { m with
          heap := m.heap.updateTable id (·.set key.normalKey value)
          running := .script f }
  | o => m.operate f .discard (nothing (Operation.setIndex o key value))

/-! ## Functions -/

/-- The cells that a new closure refers to. -/
def capturedCells (f : Frame) (captures : Array Capture) : Array Nat :=
  captures.map fun c => match c with
    | .cell r =>
      match f.get r with
      | .int i => i.toUInt64.toNat
      | _ => 0
    | .upvalue i => f.upvalues.getD i 0

def closureInto (m : Machine ε) (f : Frame) (dst : Reg) (function : Nat) : Machine ε :=
  let proto := m.chunk.functions.getD function {}
  let cells := capturedCells f proto.captures
  let (id, heap) := m.heap.addClosure ⟨proto, cells⟩
  { m with heap := heap, running := .script (f.set dst (.closure id)) }

/-! ## Loops -/

def startLoop (m : Machine ε) (f : Frame) (base : Reg) (exit : Nat) : Machine ε :=
  match Loop.prepare (f.get base) (f.get (base + 1)) (f.get (base + 2)) with
  | .wrongValue what v =>
    m.raiseIn f (.runtime (Bytes.join
      [text ("bad 'for' " ++ what ++ " (number expected, got "), m.heap.typeName v, text ")"]))
  | .zeroStep => m.raiseIn f (.runtime (text "'for' step is zero"))
  | .empty => m.goOn { f with pc := exit }
  | .ints start step rounds =>
    m.goOn (((f.set (base + 1) (.int rounds.toInt64)).set (base + 2) (.int step)).set (base + 3) (.int start))
  | .floats start limit step =>
    m.goOn ((((f.set base (.float start)).set (base + 1) (.float limit)).set (base + 2)
      (.float step)).set (base + 3) (.float start))

/-- The next round of a numeric loop, if there is one. -/
def nextRound (f : Frame) (base : Reg) (body : Nat) : Frame :=
  match f.get base, f.get (base + 1), f.get (base + 2) with
  | .int i, .int rounds, .int step =>
    if rounds = 0 then f
    else
      let i := i + step
      let f := ((f.set (base + 1) (.int (rounds - 1))).set base (.int i)).set (base + 3) (.int i)
      { f with pc := body }
  | .float x, .float limit, .float step =>
    let x := x.add step
    if (if Double.zero.lt step then x.le limit else limit.le x) then
      let f := (f.set base (.float x)).set (base + 3) (.float x)
      { f with pc := body }
    else f
  | _, _, _ => f

/-! ## Closing -/

/-- Makes a value one that is closed with its variable; nil and false need no closing. -/
def markClosing (m : Machine ε) (f : Frame) (r : Reg) (v : Value) (name : ByteArray) : Machine ε :=
  if !v.truthy then m.goOn f
  else if (m.heap.metamethod v (Bytes.ofString "__close")).isNil then
    m.raiseIn f (.runtime (Bytes.join
      [text "variable '", Bytes.untilZero name, text "' got a non-closable value"]))
  else m.goOn { f with closing := (r, v) :: f.closing }

/-- Closes the next variable at a register or above, and comes back for the others. -/
def closeFrom (m : Machine ε) (f : Frame) (r : Reg) : Machine ε :=
  match f.closing with
  | (place, v) :: rest =>
    if r ≤ place then
      m.operate { f with pc := f.pc - 1, closing := rest } .discard (closeProgram v .nil)
    else m.goOn f
  | [] => m.goOn f

/-! ## Operators -/

def arithInto (m : Machine ε) (f : Frame) (op : ArithOp) (dst : Reg) (a b : Value) : Machine ε :=
  match Arith.run op a b with
  | .value v => m.goOn (f.set dst v)
  | _ => m.operate f (.value dst) (one (Operation.arith op a b))

def branchIf (m : Machine ε) (f : Frame) (answer when_ : Bool) (target : Nat) : Machine ε :=
  m.goOn (if answer == when_ then { f with pc := target } else f)

def compareAt (m : Machine ε) (f : Frame) (c : Comparison) (a b : Value) (when_ : Bool)
    (target : Nat) : Machine ε :=
  match c with
  | .eq =>
    match a, b with
    | .table _, .table _ =>
      if a.rawEq b then m.branchIf f true when_ target
      else m.operate f (.branch when_ target) (truth (Operation.equals a b))
    | a, b => m.branchIf f (a.rawEq b) when_ target
  | .lt =>
    match Order.less? a b with
    | some r => m.branchIf f r when_ target
    | none => m.operate f (.branch when_ target) (truth (Operation.less a b))
  | .le =>
    match Order.lessEq? a b with
    | some r => m.branchIf f r when_ target
    | none => m.operate f (.branch when_ target) (truth (Operation.lessEq a b))

def lengthInto (m : Machine ε) (f : Frame) (dst : Reg) (v : Value) : Machine ε :=
  match v with
  | .str s => m.goOn (f.set dst (.ofNat s.size))
  | .table id =>
    if (m.heap.table id).meta?.isSome then m.operate f (.value dst) (one (Operation.length v))
    else
      let (n, t) := (m.heap.table id).border
      { m with heap := m.heap.modifyTable id fun _ => t, running := .script (f.set dst (.ofNat n)) }
  | v => m.operate f (.value dst) (one (Operation.length v))

/-! ## Instructions -/

/-- Executes the next instruction of a function. -/
def execute (lib : Library ε) (m : Machine ε) (f : Frame) : Machine ε :=
  let i := f.proto.code.getD f.pc (.ret 0 (.exactly 0))
  let f := { f with pc := f.pc + 1 }
  match i with
  | .move dst src =>
    let v := operand m.heap f src
    m.goOn (f.set dst v)
  | .newCell r =>
    let (id, heap) := m.heap.addCell (f.get r)
    { m with heap := heap, running := .script (f.set r (.ofNat id)) }
  | .setCell r src =>
    let v := operand m.heap f src
    match f.get r with
    | .int id => { m with heap := m.heap.setCell id.toUInt64.toNat v, running := .script f }
    | _ => m.goOn f
  | .setUpvalue i src =>
    let v := operand m.heap f src
    { m with heap := m.heap.setCell (f.upvalues.getD i 0) v, running := .script f }
  | .index dst o k => m.indexInto f dst (operand m.heap f o) (operand m.heap f k)
  | .setIndex o k v =>
    m.storeAt f (operand m.heap f o) (operand m.heap f k) (operand m.heap f v)
  | .method dst o name =>
    let object := operand m.heap f o
    m.indexInto (f.set (dst + 1) object) dst object name
  | .newTable dst dense keyed =>
    let (id, heap) := m.heap.addTable ((default : Table).resize dense keyed)
    { m with heap := heap, running := .script (f.set dst (.table id)) }
  | .setList t first count start =>
    match f.get t with
    | .table id =>
      let values := f.slice first (f.count first count)
      let heap := m.heap.spend (Heap.valueSteps * values.length)
      { m with heap := heap.updateTable id (·.setFrom start values), running := .script f }
    | _ => m.goOn f
  | .arith op dst a b => m.arithInto f op dst (operand m.heap f a) (operand m.heap f b)
  | .length dst a => m.lengthInto f dst (operand m.heap f a)
  | .not dst a =>
    let v := operand m.heap f a
    m.goOn (f.set dst (.bool !v.truthy))
  | .concat dst first count =>
    m.operate f (.value dst) (one (Operation.concat (f.slice first count)))
  | .jump target => m.goOn { f with pc := target }
  | .test a when_ target =>
    let v := operand m.heap f a
    m.branchIf f v.truthy when_ target
  | .compare c a b when_ target =>
    m.compareAt f c (operand m.heap f a) (operand m.heap f b) when_ target
  | .call base arguments results =>
    let g := f.get base
    let args := f.slice (base + 1) (f.count (base + 1) arguments)
    callValue lib (m.suspend f (.results base results)) g args
  | .tailCall base arguments =>
    let g := f.get base
    let args := f.slice (base + 1) (f.count (base + 1) arguments)
    tailCall lib m f g args
  | .ret first count =>
    let results := f.slice first (f.count first count)
    m.answer f results
  | .varargs dst count => m.goOn (f.setResults dst count f.varargs)
  | .closure dst function => m.closureInto f dst function
  | .forPrepare base exit => m.startLoop f base exit
  | .forStep base body => m.goOn (nextRound f base body)
  | .iterate base results =>
    let g := f.get base
    let args := [f.get (base + 1), f.get (base + 2)]
    m.operate f (.results (base + 4) (.exactly results)) (Program.invoke g args)
  | .iterateStep base body =>
    let v := f.get (base + 4)
    m.goOn (if v.isNil then f else { (f.set (base + 2) v) with pc := body })
  | .markClose r value name => m.markClosing f r (operand m.heap f value) name
  | .close r => m.closeFrom f r

end Machine
end StrategyBench.Lua
