/-
StrategyBench.Lua.Activation — functions that are running or wait for others.
-/

import StrategyBench.Lua.Operation
import StrategyBench.Lua.ChunkName

namespace StrategyBench.Lua

/-! ## Functions of the script -/

structure Frame where
  proto : Proto := {}
  upvalues : Array Nat := #[]
  /-- The next instruction. -/
  pc : Nat := 0
  registers : Array Value := #[]
  varargs : List Value := []
  /-- Where the values end that the last instruction of any number of values left. -/
  top : Reg := 0
  /-- Registers that are to be closed, with their values, the last one first. -/
  closing : List (Reg × Value) := []
  deriving Inhabited

namespace Frame

@[inline] def get (f : Frame) (r : Reg) : Value := f.registers.getD r .nil

/-- Puts a value into a register; there are as many registers as are needed. -/
@[inline] def set (f : Frame) (r : Reg) (v : Value) : Frame :=
  { f with registers := putAt f.registers r v }

/-- Registers up to a number. -/
def widen (f : Frame) (n : Nat) : Frame :=
  if n ≤ f.registers.size then f
  else { f with registers := f.registers ++ Array.replicate (n - f.registers.size) .nil }

/-- `n` registers from `r` on. -/
def slice (f : Frame) (r : Reg) : Nat → List Value
  | 0 => []
  | n + 1 => f.get r :: slice f (r + 1) n

def count (f : Frame) (r : Reg) : Count → Nat
  | .exactly n => n
  | .all => f.top - r

/-- Puts values into registers, as many as are there. -/
def setValues (f : Frame) (r : Reg) : List Value → Frame
  | [] => f
  | v :: vs => setValues (f.set r v) (r + 1) vs

/-- Puts exactly `n` values into registers. -/
def setExactly (f : Frame) (r : Reg) : Nat → List Value → Frame
  | 0, _ => f
  | n + 1, [] => setExactly (f.set r .nil) (r + 1) n []
  | n + 1, v :: vs => setExactly (f.set r v) (r + 1) n vs

/-- Puts results into registers; all of them end at `top`. -/
def setResults (f : Frame) (r : Reg) (n : Count) (vs : List Value) : Frame :=
  match n with
  | .exactly n => setExactly f r n vs
  | .all =>
    let f := f.widen (r + vs.length)
    let f := setValues f r vs
    { f with top := r + vs.length }

/-- A function called with some arguments. -/
def enter (c : Closure) (args : List Value) : Frame :=
  let p := c.proto
  let f : Frame :=
    { proto := p, upvalues := c.upvalues, registers := Array.replicate p.registers .nil }
  let f := setExactly f 0 p.parameters args
  if p.isVararg then { f with varargs := args.drop p.parameters } else f

/-- Places of the stack that a function takes: its registers, its further arguments, and itself. -/
def size (f : Frame) : Nat := f.proto.registers + f.varargs.length + 1

/-- The instruction that is being executed. -/
def instr (f : Frame) : Instr := f.proto.code.getD (f.pc - 1) default

def origin (f : Frame) : Origin := f.proto.originAt (f.pc - 1)

end Frame

/-! ## What waits -/

/-- What a function of the script does with the results of what it called. -/
inductive Resume
  | results (base : Reg) (n : Count)
  | value (dst : Reg)
  /-- Jumps if the truth of the result is as said. -/
  | branch (when_ : Bool) (target : Nat)
  | discard
  /-- The results are its own. -/
  | answer
  deriving Inhabited

/-- An error on its way out. -/
inductive Fault
  | text (s : ByteArray)
  | host (e : HostError)
  | memory
  deriving Inhabited

/-- What a program runs for. -/
inductive Purpose
  | native (f : Native)
  /-- An operator of the function below. -/
  | operation
  /-- An error value is being put into words. -/
  | wording
  deriving Inhabited

/-- A function of the host turns the errors of what it calls into its own. -/
def Purpose.isHost : Purpose → Bool
  | native (.host _) => true
  | _ => false

inductive Waiting (ε : Type)
  | script (f : Frame) (resume : Resume)
  /-- A program, and the memory that was reserved until it called. -/
  | program (p : Purpose) (next : List Value → Program ε (List Value)) (reserved : Nat)
  /-- A function that closes its variables before it answers. -/
  | leaving (f : Frame) (results : List Value)
  /-- A function that closes its variables because of an error. -/
  | failing (f : Frame) (fault : Fault)

/-- What runs. -/
inductive Running (ε : Type)
  | script (f : Frame)
  | program (p : Purpose) (rest : Program ε (List Value))
  | done (results : List Value)
  | failed (fault : Fault)
  deriving Inhabited

structure Machine (ε : Type) where
  heap : Heap := {}
  running : Running ε := .done []
  waiting : List (Waiting ε) := []
  /-- Calls from built-in functions and operators that are nested. -/
  depth : Nat := 0
  /-- Registers in use by all functions of the script. -/
  slots : Nat := 0
  /-- The greatest number of registers so far, for which there is memory. -/
  stackSize : Nat := 0
  chunk : Chunk := {}
  /-- What has been emitted, the last first. -/
  effects : List ε := []
  deriving Inhabited

/-! ## What messages say about a function -/

namespace Frame

/-- What the function is called that this one has called. -/
def calleeName (f : Frame) : Option Naming :=
  let event := fun name : String => some (Naming.mk "metamethod" (Bytes.ofString name))
  match f.instr with
  | .call .. | .tailCall .. => (f.origin.operands.head?).join
  | .index .. | .method .. => event "index"
  | .setIndex .. => event "newindex"
  | .arith op .. => event op.event
  | .concat .. => event "concat"
  | .length .. => event "len"
  | .compare .eq .. => event "eq"
  | .compare .lt .. => event "lt"
  | .compare .le .. => event "le"
  | .close .. | .ret .. => event "close"
  | .iterate .. => some ⟨"for iterator", Bytes.ofString "for iterator"⟩
  | _ => none

end Frame

namespace Machine

variable {ε : Type}

/-- The functions that are running, the innermost first; a built-in one is `none`. -/
def levels (m : Machine ε) : List (Option Frame) :=
  let outer := m.waiting.filterMap fun w => match w with
    | .script f _ => some (some f)
    | .leaving f _ => some (some f)
    | .failing _ _ => some none
    | .program .operation _ _ => none
    | .program _ _ _ => some none
  match m.running with
  | .script f => some f :: outer
  | .program .operation _ => outer
  | .program _ _ => none :: outer
  | _ => outer

/-- The position that the function at a level has reached; empty for a built-in one. -/
def whereAt (m : Machine ε) (level : Nat) : ByteArray :=
  match m.levels[level]? with
  | some (some f) => ChunkName.located m.chunk.name f.origin.line ByteArray.empty
  | _ => ByteArray.empty

/-- The function of the script that is running itself, not through a built-in one. -/
def scriptFrame? (m : Machine ε) : Option Frame := (m.levels.head?).join

/-- What the running built-in function is called. -/
def nativeName (m : Machine ε) : Option Naming :=
  match m.levels with
  | none :: some f :: _ => f.calleeName
  | _ => none

/-! ## Words -/

/-- What a built-in function is called where no name is at hand; guarded ones cannot be found. -/
def Builtin.globalName (f : Builtin) : String :=
  match f with
  | .assert => "assert" | .error => "error" | .ipairs => "ipairs" | .next => "next"
  | .pairs => "pairs" | .rawequal => "rawequal" | .rawget => "rawget" | .rawlen => "rawlen"
  | .rawset => "rawset" | .select => "select" | .getmetatable => "getmetatable"
  | .setmetatable => "setmetatable" | .tonumber => "tonumber" | .tostring => "tostring"
  | .type => "type"
  | .abs => "math.abs" | .acos => "math.acos" | .asin => "math.asin" | .atan => "math.atan"
  | .atan2 => "math.atan2" | .ceil => "math.ceil" | .cos => "math.cos" | .cosh => "math.cosh"
  | .deg => "math.deg" | .exp => "math.exp" | .floor => "math.floor" | .fmod => "math.fmod"
  | .frexp => "math.frexp" | .ldexp => "math.ldexp" | .log => "math.log" | .log10 => "math.log10"
  | .max => "math.max" | .min => "math.min" | .modf => "math.modf" | .pow => "math.pow"
  | .rad => "math.rad" | .random => "math.random" | .randomseed => "math.randomseed"
  | .sin => "math.sin" | .sinh => "math.sinh" | .sqrt => "math.sqrt" | .tan => "math.tan"
  | .tanh => "math.tanh" | .tointeger => "math.tointeger" | .mathType => "math.type"
  | .ult => "math.ult"
  | .byte => "string.byte" | .char => "string.char" | .dump => "string.dump"
  | .format => "string.format" | .len => "string.len" | .lower => "string.lower"
  | .pack => "string.pack" | .packsize => "string.packsize" | .reverse => "string.reverse"
  | .sub => "string.sub" | .unpack => "string.unpack" | .upper => "string.upper"
  | .find | .gmatch | .gsub | .match_ | .rep | .move => "?"
  | .tableConcat => "table.concat" | .insert => "table.insert" | .tablePack => "table.pack"
  | .remove => "table.remove" | .sort => "table.sort" | .tableUnpack => "table.unpack"
  | .utf8Char => "utf8.char" | .codepoint => "utf8.codepoint" | .codes => "utf8.codes"
  | .utf8Len => "utf8.len" | .offset => "utf8.offset"

def globalName : Native → String
  | .builtin f => Builtin.globalName f
  | _ => "?"

def text (s : String) : ByteArray := Bytes.ofString s

/-- A name of an operand, in brackets. -/
def namingText : Option Naming → ByteArray
  | some n => Bytes.join [text (" (" ++ n.kind ++ " '"), Bytes.untilZero n.name, text "')"]
  | none => ByteArray.empty

def operandName (m : Machine ε) (place : Option Nat) : ByteArray :=
  match m.scriptFrame?, place with
  | some f, some i => namingText (f.origin.operands[i]?).join
  | _, _ => ByteArray.empty

/-- A message with the position of the script's function that is running itself. -/
def runtimeText (m : Machine ε) (parts : List ByteArray) : ByteArray :=
  match m.scriptFrame? with
  | some f => ChunkName.located m.chunk.name f.origin.line (Bytes.join parts)
  | none => Bytes.join parts

/-- An argument that a built-in function refuses; a method does not count its object. -/
def argumentText (m : Machine ε) (n : Nat) (what : ByteArray) : ByteArray :=
  let position := m.whereAt 1
  let name := m.nativeName
  let bad := fun (n : Nat) (name : ByteArray) =>
    Bytes.join [position, text ("bad argument #" ++ toString n ++ " to '"), name, text "' (", what, text ")"]
  match name with
  | some ⟨"method", name⟩ =>
    if n = 1 then Bytes.join [position, text "calling '", name, text "' on bad self (", what, text ")"]
    else bad (n - 1) name
  | some ⟨_, name⟩ => bad n name
  | none =>
    bad n (text (match m.running with
      | .program (.native f) _ => globalName f
      | _ => "?"))

/-- What a wrong argument is, in words: its metatable may name its type. -/
def argumentType (m : Machine ε) (v? : Option Value) : ByteArray :=
  match v? with
  | none => text "no value"
  | some .null => text "light userdata"
  | some v => m.heap.typeName v

/-- What a call of a value that is no function is refused with. -/
def callRefusal (m : Machine ε) (f : Value) : ByteArray :=
  let name := match m.scriptFrame? with
    | some g => namingText g.calleeName
    | none => ByteArray.empty
  m.runtimeText [text "attempt to call a ", m.heap.typeName f, text " value", name]

end Machine
end StrategyBench.Lua
