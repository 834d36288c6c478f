/-
StrategyBench.Lua.Value — the values of a script, and the order of table keys.

Tables and closures are numbers of objects of a `Heap`; built-in functions are named. A failure of
the host is a value too: what a to-be-closed variable is told when the host refused something.
-/

import StrategyBench.Lua.Numeral

namespace StrategyBench.Lua

/-- An array with another value at a place, if it has that place. -/
@[noinline] def putAt {α : Type} (xs : Array α) (i : Nat) (x : α) : Array α := xs.setIfInBounds i x

/-! ## Operators -/

inductive ArithOp
  | add | sub | mul | mod | pow | div | idiv | unm
  | band | bor | bxor | shl | shr | bnot
  deriving DecidableEq, Repr, Inhabited

namespace ArithOp

/-- The name of the metamethod of an operator, without the leading underscores. -/
def event : ArithOp → String
  | add => "add" | sub => "sub" | mul => "mul" | mod => "mod" | pow => "pow" | div => "div"
  | idiv => "idiv" | unm => "unm" | band => "band" | bor => "bor" | bxor => "bxor"
  | shl => "shl" | shr => "shr" | bnot => "bnot"

def isBitwise : ArithOp → Bool
  | band | bor | bxor | shl | shr | bnot => true
  | _ => false

end ArithOp

/-! ## Built-in functions -/

/-- The functions of the libraries. -/
inductive Builtin
  -- basic
  | assert | error | ipairs | next | pairs | rawequal | rawget | rawlen | rawset | select
  | getmetatable | setmetatable | tonumber | tostring | type
  -- math
  | abs | acos | asin | atan | atan2 | ceil | cos | cosh | deg | exp | floor | fmod | frexp | ldexp
  | log | log10 | max | min | modf | pow | rad | random | randomseed | sin | sinh | sqrt | tan | tanh
  | tointeger | mathType | ult
  -- string
  | byte | char | dump | find | format | gmatch | gsub | len | lower | match_ | pack | packsize | rep
  | reverse | sub | unpack | upper
  -- table
  | tableConcat | insert | move | tablePack | remove | sort | tableUnpack
  -- utf8
  | utf8Char | codepoint | codes | utf8Len | offset
  deriving DecidableEq, Repr, Inhabited

inductive Native
  | builtin (f : Builtin)
  /-- The metamethods of strings. -/
  | stringArith (op : ArithOp)
  /-- The steps of the three iterations. -/
  | ipairsStep
  | codesStep (lax : Bool)
  /-- The cells hold where to go on, and where the last match ended. -/
  | gmatchStep (subject pattern : ByteArray) (place last : Nat)
  /-- A function of the program that runs the script. -/
  | host (name : String)
  deriving Inhabited

/-! ## Values -/

/-- A failure of the host, as a value of the script. -/
inductive HostError
  | refusedModule (name : String)
  | message (text : String)
  deriving DecidableEq, Repr, Inhabited

inductive Value
  | nil
  | bool (b : Bool)
  | int (i : Int64)
  | float (x : Double)
  | str (s : ByteArray)
  | table (id : Nat)
  | closure (id : Nat)
  | native (f : Native)
  /-- What stands for JSON's null. -/
  | null
  | failure (e : HostError)
  deriving Inhabited

namespace Native

def same : Native → Native → Bool
  | builtin f, builtin g => f == g
  | stringArith f, stringArith g => f == g
  | ipairsStep, ipairsStep => true
  | codesStep a, codesStep b => a == b
  | gmatchStep _ _ a _, gmatchStep _ _ b _ => a == b
  | host a, host b => a == b
  | _, _ => false

end Native

namespace Value

@[inline] def truthy : Value → Bool
  | nil | bool false => false
  | _ => true

@[inline] def isNil : Value → Bool
  | nil => true
  | _ => false

def isFunction : Value → Bool
  | closure _ | native _ => true
  | _ => false

def ofString (s : String) : Value := str (Bytes.ofString s)

def ofNumber : Number → Value
  | .int i => int i
  | .float x => float x

def ofNat (n : Nat) : Value := int (Int64.ofNat n)

/-- The name of a value's type. -/
def typeName : Value → String
  | nil => "nil"
  | bool _ => "boolean"
  | int _ | float _ => "number"
  | str _ => "string"
  | table _ => "table"
  | closure _ | native _ => "function"
  | null | failure _ => "userdata"

/-- The name by which the host speaks of a value's type. -/
def hostTypeName : Value → String
  | int _ => "integer"
  | null => "lightuserdata"
  | failure _ => "error"
  | v => v.typeName

/-- Whether an integer and a float are the same number. -/
def intEqFloat (i : Int64) (x : Double) : Bool := Numeral.exactInt? x == some i

/-- Equality without metamethods. -/
def rawEq : Value → Value → Bool
  | nil, nil => true
  | bool a, bool b => a == b
  | int a, int b => a == b
  | float a, float b => a.eq b
  | int a, float b => intEqFloat a b
  | float a, int b => intEqFloat b a
  | str a, str b => Bytes.equal a b
  | table a, table b => a == b
  | closure a, closure b => a == b
  | native a, native b => a.same b
  | null, null => true
  | failure a, failure b => a == b
  | _, _ => false

/-! ## Numbers in values -/

/-- The number that a value is, or that its text reads as. -/
def toNumber? : Value → Option Number
  | int i => some (.int i)
  | float x => some (.float x)
  | str s => Numeral.ofBytes? s
  | _ => none

def toDouble? (v : Value) : Option Double :=
  match v.toNumber? with
  | some (.int i) => some (Numeral.ofInt64 i)
  | some (.float x) => some x
  | none => none

/-- The integer that a value is, equals, or reads as. -/
def toInt? (v : Value) : Option Int64 :=
  match v.toNumber? with
  | some (.int i) => some i
  | some (.float x) => Numeral.exactInt? x
  | none => none

/-- The text of a string or a number. -/
def text? : Value → Option ByteArray
  | str s => some s
  | int i => some (Bytes.ofString (Numeral.intText i))
  | float x => some (Bytes.ofString (Numeral.floatText x))
  | _ => none

/-! ## Keys -/

/-- A float key that equals an integer stands for it. -/
def normalKey (k : Value) : Value :=
  match k with
  | float x => match Numeral.exactInt? x with
    | some i => int i
    | none => k
  | _ => k

def nativeOrder : Native → Native → Ordering
  | .builtin f, .builtin g => compare f.ctorIdx g.ctorIdx
  | .stringArith f, .stringArith g => compare f.ctorIdx g.ctorIdx
  | .codesStep a, .codesStep b => compare a.toNat b.toNat
  | .gmatchStep _ _ a _, .gmatchStep _ _ b _ => compare a b
  | .host a, .host b => compare a b
  | a, b => compare a.ctorIdx b.ctorIdx

def failureOrder : HostError → HostError → Ordering
  | .refusedModule a, .refusedModule b => compare a b
  | .message a, .message b => compare a b
  | .refusedModule _, .message _ => .lt
  | .message _, .refusedModule _ => .gt

/-- The order in which a table keeps its keys, for keys that are normal and not "not a number". -/
def keyOrder : Value → Value → Ordering
  | str a, str b => Bytes.shortlex a b
  | int a, int b => if a < b then .lt else if b < a then .gt else .eq
  | float a, float b => compare a.orderKey b.orderKey
  | bool a, bool b => compare a.toNat b.toNat
  | table a, table b => compare a b
  | closure a, closure b => compare a b
  | native a, native b => nativeOrder a b
  | failure a, failure b => failureOrder a b
  | a, b => compare a.ctorIdx b.ctorIdx

end Value
end StrategyBench.Lua
