/-
StrategyBench.Lua.Numeral — numbers of a script: reading them, writing them, and going between
integers and floats.
-/

import StrategyBench.Number.Decimal
import StrategyBench.Lua.Bytes

namespace StrategyBench.Lua

inductive Number
  | int (i : Int64)
  | float (x : Double)
  deriving DecidableEq, Repr

namespace Numeral

/-! ## Conversions -/

def minInt : Int := -(twoTo 63)
def maxInt : Int := twoTo 63 - 1

def inRange (i : Int) : Bool := minInt ≤ i && i ≤ maxInt

/-- The integer that a float equals. -/
def exactInt? (x : Double) : Option Int64 :=
  match x.toInt? with
  | some i => if inRange i then some (Int64.ofInt i) else none
  | none => none

/-- The greatest integer that is not above a finite float. -/
def floorInt? (x : Double) : Option Int :=
  match x.truncate? with
  | some i => if x.isNegative && (x.toInt?).isNone then some (i - 1) else some i
  | none => none

def ceilInt? (x : Double) : Option Int :=
  match x.truncate? with
  | some i => if !x.isNegative && (x.toInt?).isNone then some (i + 1) else some i
  | none => none

def ofInt64 (i : Int64) : Double := Double.ofFloat i.toFloat

/-! ## Characters of numerals -/

def isDigit (b : UInt8) : Bool := 48 ≤ b && b ≤ 57

def isBlank (b : UInt8) : Bool := b == 32 || (9 ≤ b && b ≤ 13)

def hexValue? (b : UInt8) : Option Nat :=
  if 48 ≤ b && b ≤ 57 then some (b.toNat - 48)
  else if 97 ≤ b && b ≤ 102 then some (b.toNat - 87)
  else if 65 ≤ b && b ≤ 70 then some (b.toNat - 55)
  else none

def isHex (b : UInt8) : Bool := (hexValue? b).isSome

def decimalValue (ds : List UInt8) : Nat := ds.foldl (fun n d => n * 10 + (d.toNat - 48)) 0

def hexNumber (ds : List UInt8) : Nat := ds.foldl (fun n d => n * 16 + (hexValue? d).getD 0) 0

/-! ## Reading -/

def afterSign : List UInt8 → Bool × List UInt8
  | 45 :: rest => (true, rest)
  | 43 :: rest => (false, rest)
  | cs => (false, cs)

def hexDigits? : List UInt8 → Option (List UInt8)
  | 48 :: 120 :: rest => some rest
  | 48 :: 88 :: rest => some rest
  | _ => none

/-- An integer numeral; a hexadecimal one wraps around, a decimal one has to fit. -/
def readInteger (cs : List UInt8) : Option (Int64 × List UInt8) :=
  let (negative, cs) := afterSign cs
  match hexDigits? cs with
  | some cs =>
    let (ds, rest) := cs.span isHex
    if ds.isEmpty then none
    else
      let i := Int64.ofNat (hexNumber ds % twoTo 64)
      some (if negative then -i else i, rest)
  | none =>
    let (ds, rest) := cs.span isDigit
    if ds.isEmpty then none
    else
      let n : Int := decimalValue ds
      let i := if negative then -n else n
      if inRange i then some (Int64.ofInt i, rest) else none

/-- An exponent after its mark: a signed decimal number. -/
def readExponent (cs : List UInt8) : Option (Int × List UInt8) :=
  let (negative, cs) := afterSign cs
  let (ds, rest) := cs.span isDigit
  if ds.isEmpty then none
  else
    let n : Int := decimalValue (ds.take 400)
    some (if negative then -n else n, rest)

/-- Digits, at most one point among them; the count of those behind the point. -/
def readMantissa (digit : UInt8 → Bool) (cs : List UInt8) : List UInt8 × Nat × List UInt8 :=
  let (whole, rest) := cs.span digit
  match rest with
  | 46 :: rest =>
    let (fraction, rest) := rest.span digit
    (whole ++ fraction, fraction.length, rest)
  | rest => (whole, 0, rest)

/-- A float numeral; an exponent without digits is not part of it. -/
def readFloat (cs : List UInt8) : Option (Double × List UInt8) :=
  let (negative, cs) := afterSign cs
  match hexDigits? cs with
  | some cs =>
    let (ds, places, rest) := readMantissa isHex cs
    if ds.isEmpty then none
    else
      let (e, rest) : Int × List UInt8 := match rest with
        | 112 :: more | 80 :: more => (readExponent more).getD (0, rest)
        | rest => (0, rest)
      some (Double.ofBinary negative (hexNumber ds) (e - 4 * places), rest)
  | none =>
    let (ds, places, rest) := readMantissa isDigit cs
    if ds.isEmpty then none
    else
      let (e, rest) : Int × List UInt8 := match rest with
        | 101 :: more | 69 :: more => (readExponent more).getD (0, rest)
        | rest => (0, rest)
      some (Double.ofDecimal negative (decimalValue ds) (e - places), rest)

/-- The number that a text is, with blanks around it. -/
def ofList? (cs : List UInt8) : Option Number :=
  let cs := cs.dropWhile isBlank
  let ended := fun rest : List UInt8 => (rest.dropWhile isBlank).isEmpty
  match (readInteger cs).filter fun r => ended r.2 with
  | some (i, _) => some (.int i)
  | none => ((readFloat cs).filter fun r => ended r.2).map fun r => .float r.1

def ofBytes? (s : ByteArray) : Option Number := ofList? s.toList

/-! ## Writing -/

def stripZeros (digits : List Char) : List Char := (digits.reverse.dropWhile (· = '0')).reverse

def exponentText (e : Int) : String :=
  let mark := if e < 0 then "-" else "+"
  mark ++ Decimal.padLeft 2 '0' (toString e.natAbs)

/-- Significant digits `ds` with the leading one at place `e`, in the shorter of two layouts. -/
def generalLayout (count : Nat) (keepZeros : Bool) (ds : List Char) (e : Int) : String :=
  let trim := fun cs => if keepZeros then cs else stripZeros cs
  let withFraction := fun (whole fraction : List Char) =>
    let fraction := trim fraction
    if fraction.isEmpty then String.ofList whole ++ (if keepZeros then "." else "")
    else String.ofList whole ++ "." ++ String.ofList fraction
  if e < -4 ∨ (count : Int) ≤ e then
    withFraction (ds.take 1) (ds.drop 1) ++ "e" ++ exponentText e
  else if e < 0 then
    withFraction ['0'] (List.replicate ((-e).toNat - 1) '0' ++ ds)
  else
    withFraction (ds.take (e.toNat + 1)) (ds.drop (e.toNat + 1))

/-- The digits of a magnitude at `count > 0` significant digits, and the place of the leading one. -/
def significant (x : Double) (count : Nat) : List Char × Int :=
  let (digits, place) := Decimal.atDigits x count
  ((Decimal.padLeft count '0' (toString digits)).toList, place)

/-- The name of what is not a finite number. -/
def specialText (x : Double) : String := if x.isNaN then "nan" else "inf"

def signText (x : Double) : String := if x.isNegative then "-" else ""

/-- A float with at most 14 significant digits. -/
def floatDigits (x : Double) : String :=
  if !x.isFinite then signText x ++ specialText x
  else
    let (ds, e) := significant x 14
    signText x ++ generalLayout 14 false ds e

/-- A float as text: 14 significant digits, and a `.0` where it would read as an integer. -/
def floatText (x : Double) : String :=
  let s := floatDigits x
  if x.isFinite && s.all (fun c => c.isDigit || c == '-') then s ++ ".0" else s

def intText (i : Int64) : String := toString i.toInt

end Numeral

def Number.text : Number → String
  | .int i => Numeral.intText i
  | .float x => Numeral.floatText x

end StrategyBench.Lua
