/-
StrategyBench.Lua.Operation — what the operators do, metamethods included.
-/

import StrategyBench.Lua.Program

namespace StrategyBench.Lua

/-! ## Arithmetic on numbers -/

namespace Arith

inductive Result
  | value (v : Value)
  | zeroDivisor (text : String)
  /-- The operands are no numbers that the operator takes. -/
  | unsuited

def shiftLeft (a b : Int64) : Int64 :=
  let n := b.toInt
  if n ≤ -64 ∨ 64 ≤ n then 0
  else if 0 ≤ n then (a.toUInt64 <<< n.toNat.toUInt64).toInt64
  else (a.toUInt64 >>> n.natAbs.toUInt64).toInt64

def bits (op : ArithOp) (a b : Int64) : Int64 :=
  match op with
  | .band => a &&& b
  | .bor => a ||| b
  | .bxor => a ^^^ b
  | .shl => shiftLeft a b
  | .shr => shiftLeft a (-b)
  | _ => ~~~a

/-- The remainder with the sign of the divisor. -/
def floatMod (a b : Double) : Double :=
  let m := a.truncRem b
  if m.isNaN || m.isZero then m
  else if m.isNegative != b.isNegative then m.add b else m

def ints (op : ArithOp) (a b : Int64) : Result :=
  match op with
  | .add => .value (.int (a + b))
  | .sub => .value (.int (a - b))
  | .mul => .value (.int (a * b))
  | .unm => .value (.int (-a))
  | .idiv =>
    if b = 0 then .zeroDivisor "attempt to divide by zero"
    else .value (.int (Int64.ofInt (a.toInt.fdiv b.toInt)))
  | .mod =>
    if b = 0 then .zeroDivisor "attempt to perform 'n%%0'"
    else .value (.int (Int64.ofInt (a.toInt.fmod b.toInt)))
  | _ => .unsuited

def power (a b : Double) : Double := if b.eq (Double.ofNat 2) then a.mul a else a.pow b

def floats (op : ArithOp) (a b : Double) : Result :=
  match op with
  | .add => .value (.float (a.add b))
  | .sub => .value (.float (a.sub b))
  | .mul => .value (.float (a.mul b))
  | .div => .value (.float (a.div b))
  | .pow => .value (.float (power a b))
  | .idiv => .value (.float (a.div b).floor)
  | .mod => .value (.float (floatMod a b))
  | .unm => .value (.float a.neg)
  | _ => .unsuited

def isNumber : Value → Bool
  | .int _ | .float _ => true
  | _ => false

def numbers (op : ArithOp) (a b : Value) : Result :=
  match a, b with
  | .int i, .int j =>
    if op = .div ∨ op = .pow then floats op (Numeral.ofInt64 i) (Numeral.ofInt64 j) else ints op i j
  | .float x, .float y => floats op x y
  | .int i, .float y => floats op (Numeral.ofInt64 i) y
  | .float x, .int j => floats op x (Numeral.ofInt64 j)
  | _, _ => .unsuited

/-- An operator on numbers; the bitwise ones also take texts of integers. -/
def run (op : ArithOp) (a b : Value) : Result :=
  if op.isBitwise then
    match a.toInt?, b.toInt? with
    | some i, some j => .value (.int (bits op i j))
    | _, _ => .unsuited
  else numbers op a b

end Arith

/-! ## Order of numbers -/

namespace Order

def intLtFloat (i : Int64) (x : Double) : Bool :=
  match Numeral.ceilInt? x with
  | some n => i.toInt < n
  | none => !x.isNaN && !x.isNegative

def intLeFloat (i : Int64) (x : Double) : Bool :=
  match Numeral.floorInt? x with
  | some n => i.toInt ≤ n
  | none => !x.isNaN && !x.isNegative

def floatLtInt (x : Double) (i : Int64) : Bool :=
  match Numeral.floorInt? x with
  | some n => n < i.toInt
  | none => !x.isNaN && x.isNegative

def floatLeInt (x : Double) (i : Int64) : Bool :=
  match Numeral.ceilInt? x with
  | some n => n ≤ i.toInt
  | none => !x.isNaN && x.isNegative

/-- Whether one value is less than another, for two numbers or two strings. -/
def less? (a b : Value) : Option Bool :=
  match a, b with
  | .int i, .int j => some (i < j)
  | .float x, .float y => some (x.lt y)
  | .int i, .float y => some (intLtFloat i y)
  | .float x, .int j => some (floatLtInt x j)
  | .str s, .str t => some (Bytes.order s t == .lt)
  | _, _ => none

def lessEq? (a b : Value) : Option Bool :=
  match a, b with
  | .int i, .int j => some (i ≤ j)
  | .float x, .float y => some (x.le y)
  | .int i, .float y => some (intLeFloat i y)
  | .float x, .int j => some (floatLeInt x j)
  | .str s, .str t => some (Bytes.order s t != .gt)
  | _, _ => none

end Order

/-! ## Operators as programs -/

namespace Operation

open Program

variable {ε : Type}

/-- How long a chain of tables may be. -/
def maxChain : Nat := 2000

def indexFrom (v key : Value) (outermost : Bool) : Nat → Program ε Value
  | 0 => raise (.runtime (Bytes.ofString "'__index' chain too long; possibly a loop"))
  | fuel + 1 => do
    let found ← match v with
      | .table id => rawGet id key
      | _ => done .nil
    if !found.isNil then done found
    else
      let handler ← metamethod v "__index"
      match v, handler with
      | .table _, .nil => done .nil
      | _, .nil => raise (.operand "index" v (if outermost then some 0 else none))
      | _, handler =>
        if handler.isFunction then invoke₁ handler [v, key] else indexFrom handler key false fuel

/-- `v[key]`. -/
def index (v key : Value) : Program ε Value := indexFrom v key true maxChain

def setIndexFrom (v key value : Value) (outermost : Bool) : Nat → Program ε Unit
  | 0 => raise (.runtime (Bytes.ofString "'__newindex' chain too long; possibly a loop"))
  | fuel + 1 => do
    let found ← match v with
      | .table id => rawGet id key
      | _ => done .nil
    match v, found.isNil with
    | .table id, false => rawSet id key value
    | _, _ =>
      let handler ← metamethod v "__newindex"
      match v, handler with
      | .table id, .nil => rawSet id key value
      | _, .nil => raise (.operand "index" v (if outermost then some 0 else none))
      | _, handler =>
        if handler.isFunction then
          discard (invoke handler [v, key, value])
        else setIndexFrom handler key value false fuel

/-- `v[key] = value`. -/
def setIndex (v key value : Value) : Program ε Unit := setIndexFrom v key value true maxChain

/-- The metamethod of the first operand that has one. -/
def binaryHandler (a b : Value) (event : String) : Program ε Value := do
  let handler ← metamethod a event
  if handler.isNil then metamethod b event else done handler

/-- Why an operator does not take its operands. -/
def arithRefusal (op : ArithOp) (a b : Value) : Raise :=
  let wrong := fun action : String =>
    if Arith.isNumber a then Raise.operand action b (some 1) else Raise.operand action a (some 0)
  if op.isBitwise then
    if Arith.isNumber a && Arith.isNumber b then .noInteger (some (if a.toInt?.isSome then 1 else 0))
    else wrong "perform bitwise operation on"
  else wrong "perform arithmetic on"

/-- An arithmetic or bitwise operator; a unary one gets its operand twice. -/
def arith (op : ArithOp) (a b : Value) : Program ε Value :=
  match Arith.run op a b with
  | .value v => done v
  | .zeroDivisor text => raise (.runtime (Bytes.ofString text))
  | .unsuited => do
    let handler ← binaryHandler a b ("__" ++ op.event)
    if handler.isNil then raise (arithRefusal op a b) else invoke₁ handler [a, b]

def less (a b : Value) : Program ε Bool :=
  match Order.less? a b with
  | some r => done r
  | none => do
    let handler ← binaryHandler a b "__lt"
    if handler.isNil then raise (.comparison a b)
    else return (← invoke₁ handler [a, b]).truthy

/-- At most: by `__le`, or else as "not less the other way round". -/
def lessEq (a b : Value) : Program ε Bool :=
  match Order.lessEq? a b with
  | some r => done r
  | none => do
    let handler ← binaryHandler a b "__le"
    if handler.isNil then
      let handler ← binaryHandler b a "__lt"
      if handler.isNil then raise (.comparison a b)
      else return !(← invoke₁ handler [b, a]).truthy
    else return (← invoke₁ handler [a, b]).truthy

def equals (a b : Value) : Program ε Bool :=
  if a.rawEq b then done true
  else
    match a, b with
    | .table _, .table _ => do
      let handler ← binaryHandler a b "__eq"
      if handler.isNil then done false
      else return (← invoke₁ handler [a, b]).truthy
    | _, _ => done false

/-- `#v`. -/
def length (v : Value) : Program ε Value :=
  match v with
  | .str s => done (.ofNat s.size)
  | v => do
    let handler ← metamethod v "__len"
    match v, handler with
    | .table id, .nil => return .ofNat (← border id)
    | _, .nil => raise (.operand "get length of" v (some 0))
    | _, handler => invoke₁ handler [v]

/-- The length as an integer, as the library asks for it. -/
def lengthInt (v : Value) : Program ε Int64 := do
  match (← length v).toInt? with
  | some i => done i
  | none => raiseText "object length is not an integer"

/-- Joins values that stand last first. The place of the top value names it in a refusal. -/
def concatReversed : Nat → List Value → Program ε Value
  | 0, _ => done .nil
  | _, [] => done .nil
  | _, [v] => done v
  | fuel + 1, b :: a :: rest =>
    match a.text?, b.text? with
    | some s, some t =>
      let more := rest.takeWhile fun v => v.text?.isSome
      let joined := Bytes.join ((more.reverse.filterMap Value.text?) ++ [s, t])
      do
        reserve (joined.size + 25)
        concatReversed fuel (.str joined :: rest.drop more.length)
    | left, _ => do
      let handler ← binaryHandler a b "__concat"
      if handler.isNil then
        let place := rest.length
        raise (if left.isSome then .operand "concatenate" b (some (place + 1))
               else .operand "concatenate" a (some place))
      else
        let v ← invoke₁ handler [a, b]
        concatReversed fuel (v :: rest)

/-- `a .. b .. c`, from the right. -/
def concat (vs : List Value) : Program ε Value := concatReversed vs.length vs.reverse

/-! ## Text of a value -/

def hexText (n : Nat) : String := String.ofList (Nat.toDigits 16 n)

/-- The address that a value shows. -/
def address : Value → String
  | .table id => "0x" ++ hexText (0x550000000000 + 64 * id)
  | .closure id => "0x" ++ hexText (0x560000000000 + 64 * id)
  | .native f => "0x" ++ hexText (0x570000000000 + 64 * f.ctorIdx)
  | .failure _ => "0x580000000040"
  | _ => "(nil)"

def plainText (v : Value) : ByteArray :=
  match v with
  | .nil => Bytes.ofString "nil"
  | .bool b => Bytes.ofString (if b then "true" else "false")
  | v => v.text?.getD (Bytes.ofString (v.typeName ++ ": " ++ address v))

/-- The text of a value, as `tostring` answers it. -/
def display (v : Value) : Program ε ByteArray := do
  let handler ← metamethod v "__tostring"
  match v, handler with
  | .failure (.message text), _ => done (Bytes.ofString text)
  | .failure (.refusedModule name), _ => done (Bytes.ofString ("不允許引入模組: " ++ name))
  | v, .nil =>
    match v with
    | .table _ => do
      match ← metamethod v "__name" with
      | .str s => done (s ++ Bytes.ofString (": " ++ address v))
      | _ => done (plainText v)
    | v => done (plainText v)
  | v, handler =>
    match (← invoke₁ handler [v]).text? with
    | some s => done s
    | none => raiseText "'__tostring' must return a string"

end Operation
end StrategyBench.Lua
