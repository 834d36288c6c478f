/-
StrategyBench.Number.Double — binary64 numbers, kept as their 64 bits.

A number is its bit pattern, so two numbers can be told apart also where `==` cannot (`0.0` and
`-0.0`, the two signs of "not a number"). Exact work (decoding, rounding a ratio, reading an
integer back) is done on `Nat` and `Int`; only the arithmetic goes through the hardware.
-/

import StrategyBench.Number.Power

namespace StrategyBench

/-- A binary64 number, as its bit pattern. -/
structure Double where
  bits : UInt64
  deriving DecidableEq, Repr, Inhabited

namespace Double

/-! ## Reading the pattern -/

def signBit : UInt64 := 0x8000000000000000
def magnitudeMask : UInt64 := 0x7FFFFFFFFFFFFFFF
def infinityBits : UInt64 := 0x7FF0000000000000

def isNegative (x : Double) : Bool := x.bits &&& signBit != 0
def magnitude (x : Double) : UInt64 := x.bits &&& magnitudeMask
def isNaN (x : Double) : Bool := x.magnitude > infinityBits
def isInfinite (x : Double) : Bool := x.magnitude == infinityBits
def isFinite (x : Double) : Bool := x.magnitude < infinityBits
def isZero (x : Double) : Bool := x.magnitude == 0

def zero : Double := ⟨0⟩
def infinity : Double := ⟨infinityBits⟩

/-- What an invalid operation answers: "not a number" with the sign bit set. -/
def invalid : Double := ⟨0xFFF8000000000000⟩

def neg (x : Double) : Double := ⟨x.bits ^^^ signBit⟩
def abs (x : Double) : Double := ⟨x.magnitude⟩

/-- The exact value of a finite number, up to sign: `m · 2 ^ q`. -/
structure Parts where
  mantissa : Nat
  exponent : Int
  deriving DecidableEq, Repr

def parts (x : Double) : Parts :=
  let e := (x.magnitude >>> 52).toNat
  let f := (x.bits &&& 0xFFFFFFFFFFFFF).toNat
  if e = 0 then ⟨f, -1074⟩ else ⟨f + twoTo 52, (e : Int) - 1075⟩

/-! ## Rounding an exact value -/

/-- `num / den` rounded to the nearest integer, a tie to the even one. -/
def roundHalfEven (num den : Nat) : Nat :=
  let d := num / den
  let r := num % den
  if 2 * r > den ∨ (2 * r = den ∧ d % 2 = 1) then d + 1 else d

/-- The pattern of `m · 2 ^ q`, where `m ≤ 2 ^ 53` and `q ≥ -1074` is least unless `m ≥ 2 ^ 52`. -/
def encode (m : Nat) (q : Int) : UInt64 :=
  let (m, q) := if m = twoTo 53 then (twoTo 52, q + 1) else (m, q)
  if m < twoTo 52 then m.toUInt64
  else if q > 971 then infinityBits
  else ((q + 1075).toNat * twoTo 52 + (m - twoTo 52)).toUInt64

/-- The number nearest to `num / den`, a tie to the even one. -/
def ofRatio (negative : Bool) (num den : Nat) : Double :=
  let magnitude : UInt64 :=
    if num = 0 then 0
    else
      let k : Int := (num.log2 : Int) - den.log2
      let reaches : Bool := if k ≥ 0 then num ≥ den * twoTo k.toNat else num * twoTo (-k).toNat ≥ den
      let q : Int := max ((if reaches then k else k - 1) - 52) (-1074)
      let m := if q ≥ 0 then roundHalfEven num (den * twoTo q.toNat)
               else roundHalfEven (num * twoTo (-q).toNat) den
      encode m q
  ⟨if negative then magnitude ||| signBit else magnitude⟩

def ofInt (i : Int) : Double := ofRatio (i < 0) i.natAbs 1
def ofNat (n : Nat) : Double := ofRatio false n 1

/-- The number nearest to `± m · 10 ^ e`. -/
def ofDecimal (negative : Bool) (m : Nat) (e : Int) : Double :=
  if m = 0 then ofRatio negative 0 1
  else
    let digits : Int := (m.log2 : Int) / 3
    if e > 400 then ⟨(if negative then infinity.neg else infinity).bits⟩
    else if e < -400 - digits then ofRatio negative 0 1
    else if e ≥ 0 then ofRatio negative (m * tenTo e.toNat) 1
    else ofRatio negative m (tenTo (-e).toNat)

/-- The number nearest to `± m · 2 ^ e`. -/
def ofBinary (negative : Bool) (m : Nat) (e : Int) : Double :=
  if m = 0 then ofRatio negative 0 1
  else
    let width : Int := m.log2
    if width + e > 1100 then (if negative then infinity.neg else infinity)
    else if width + e < -1200 then ofRatio negative 0 1
    else if e ≥ 0 then ofRatio negative (m * twoTo e.toNat) 1
    else ofRatio negative m (twoTo (-e).toNat)

/-! ## Reading integers back -/

/-- The integer part, toward zero; `none` if the number is not finite. -/
def truncate? (x : Double) : Option Int :=
  if x.isFinite then
    let p := x.parts
    let n : Nat := if p.exponent ≥ 0 then p.mantissa * twoTo p.exponent.toNat
                   else p.mantissa / twoTo (-p.exponent).toNat
    some (if x.isNegative then -(n : Int) else n)
  else none

/-- The integer that a number equals exactly, if there is one. -/
def toInt? (x : Double) : Option Int :=
  if x.isFinite then
    let p := x.parts
    if p.exponent ≥ 0 then
      let n : Nat := p.mantissa * twoTo p.exponent.toNat
      some (if x.isNegative then -(n : Int) else n)
    else
      let d := twoTo (-p.exponent).toNat
      if p.mantissa % d = 0 then
        let n := p.mantissa / d
        some (if x.isNegative then -(n : Int) else n)
      else none
  else none

/-! ## Arithmetic -/

@[inline] def toFloat (x : Double) : Float := Float.ofBits x.bits

/-- A result of the hardware; one that is not a number is the invalid one. -/
@[inline] def ofFloat (f : Float) : Double := if f.isNaN then invalid else ⟨f.toBits⟩

/-- A hardware operation of one argument; what is not a number passes through. -/
@[inline] def lift1 (f : Float → Float) (x : Double) : Double :=
  if x.isNaN then x else ofFloat (f x.toFloat)

/-- A hardware operation of two arguments; what is not a number passes through, the first one first. -/
@[inline] def lift2 (f : Float → Float → Float) (x y : Double) : Double :=
  if x.isNaN then x else if y.isNaN then y else ofFloat (f x.toFloat y.toFloat)

def add : Double → Double → Double := lift2 (· + ·)
def sub : Double → Double → Double := lift2 (· - ·)
def mul : Double → Double → Double := lift2 (· * ·)
def div : Double → Double → Double := lift2 (· / ·)
def floor : Double → Double := lift1 Float.floor
def ceil : Double → Double := lift1 Float.ceil
def sqrt : Double → Double := lift1 Float.sqrt

/-- A power; `1` to any power and any power of `0` are `1`, also where the other is not a number. -/
def pow (x y : Double) : Double :=
  if y.isZero ∨ x = ofNat 1 then ofNat 1 else lift2 Float.pow x y

/-- A key in which numbers are ordered like integers; both zeros are `0`. Not for "not a number". -/
def orderKey (x : Double) : Int :=
  if x.isNegative then -(x.magnitude.toNat : Int) else x.magnitude.toNat

def lt (x y : Double) : Bool :=
  !x.isNaN && !y.isNaN &&
  if x.isNegative then (if y.isNegative then y.magnitude < x.magnitude else !(x.isZero && y.isZero))
  else !y.isNegative && x.magnitude < y.magnitude

/-- Numeric equality: the two zeros are equal, and what is not a number equals nothing. -/
def eq (x y : Double) : Bool := !x.isNaN && !y.isNaN && (x.bits == y.bits || (x.isZero && y.isZero))

def le (x y : Double) : Bool := x.lt y || x.eq y

/-- The remainder of the division that truncates, exact, with the sign of the dividend. -/
def truncRem (x y : Double) : Double :=
  if x.isNaN then x else if y.isNaN then y
  else if x.isInfinite ∨ y.isZero then invalid
  else if y.isInfinite ∨ x.isZero then x
  else
    let p := x.parts
    let r := y.parts
    let q := min p.exponent r.exponent
    let m := (p.mantissa * twoTo (p.exponent - q).toNat) % (r.mantissa * twoTo (r.exponent - q).toNat)
    ofBinary x.isNegative m q

/-- `x = f · 2 ^ e` with `f` of magnitude in `[1/2, 1)`; zero and what is not finite stand for themselves. -/
def splitExponent (x : Double) : Double × Int :=
  if x.isZero || !x.isFinite then (x, 0)
  else
    let p := x.parts
    let width : Int := p.mantissa.log2 + 1
    (ofBinary x.isNegative p.mantissa (-width), p.exponent + width)

/-- `x · 2 ^ e`. -/
def scaleBinary (x : Double) (e : Int) : Double :=
  if x.isZero || !x.isFinite then x
  else
    let p := x.parts
    ofBinary x.isNegative p.mantissa (p.exponent + e)

end Double
end StrategyBench
