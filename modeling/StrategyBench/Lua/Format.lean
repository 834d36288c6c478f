/-
StrategyBench.Lua.Format — conversion specifications such as `%-5.2f`, and values laid out by them.
-/

import StrategyBench.Lua.Pattern

namespace StrategyBench.Lua.Format

open Pattern (Ascii.isDigit Ascii.isAlpha)

/-! ## Specifications -/

/-- What stands between `%` and the conversion letter, and the letter. -/
structure Spec where
  modifiers : List UInt8
  letter : UInt8
  deriving DecidableEq, Repr

def isDigit (c : UInt8) : Bool := 48 ≤ c && c ≤ 57

def isModifier (c : UInt8) : Bool := isDigit c || [45, 43, 32, 35, 46].contains c

/-- How many modifiers a specification may have. -/
def maxModifiers : Nat := 20

/-- A specification after its `%`, and the rest; the end stands for a zero letter. -/
def readSpec (cs : List UInt8) : Option (Spec × List UInt8) :=
  let (modifiers, rest) := cs.span isModifier
  if maxModifiers < modifiers.length then none
  else
    match rest with
    | c :: rest => some (⟨modifiers, c⟩, rest)
    | [] => some (⟨modifiers, 0⟩, [])

/-- The text of a specification. -/
def Spec.text (s : Spec) : ByteArray :=
  Bytes.untilZero (Bytes.ofList (37 :: s.modifiers ++ [s.letter]))

/-- Drops at most two digits. -/
def dropTwoDigits : List UInt8 → List UInt8
  | a :: b :: rest => if isDigit a then (if isDigit b then rest else b :: rest) else a :: b :: rest
  | [a] => if isDigit a then [] else [a]
  | [] => []

/-- Whether the modifiers are flags among some, a width and, where one is allowed, a precision. -/
def Spec.isValid (s : Spec) (flags : List UInt8) (precision : Bool) : Bool :=
  match s.modifiers.dropWhile flags.contains with
  | 48 :: _ => false
  | rest =>
    match dropTwoDigits rest with
    | 46 :: rest => precision && (dropTwoDigits rest).isEmpty
    | rest => rest.isEmpty

/-! ## Layout -/

structure Layout where
  left : Bool
  plus : Bool
  space : Bool
  alternate : Bool
  zero : Bool
  width : Nat
  precision : Option Nat
  deriving Repr

def Spec.layout (s : Spec) : Layout :=
  let (flags, rest) := s.modifiers.span [45, 43, 32, 35, 48].contains
  let (width, rest) := rest.span isDigit
  { left := flags.contains 45
    plus := flags.contains 43
    space := flags.contains 32
    alternate := flags.contains 35
    zero := flags.contains 48
    width := Numeral.decimalValue width
    precision := match rest with
      | 46 :: digits => some (Numeral.decimalValue digits)
      | _ => none }

/-- Blanks on the side that the layout says. -/
def Layout.pad (l : Layout) (s : ByteArray) : ByteArray :=
  let fill := Bytes.ofList (List.replicate (l.width - s.size) 32)
  if l.left then s ++ fill else fill ++ s

/-- A number of a sign or mark and a body; zeros may fill the width between them. -/
def Layout.number (l : Layout) (mark body : String) (zeros : Bool) : ByteArray :=
  let fill := if zeros && l.zero && !l.left then l.width - (mark.length + body.length) else 0
  l.pad (Bytes.ofString (mark ++ Decimal.zeros fill ++ body))

def Layout.sign (l : Layout) (negative : Bool) : String :=
  if negative then "-" else if l.plus then "+" else if l.space then " " else ""

/-! ## Integers -/

/-- Digits with at least as many of them as the precision asks for; zero has none at precision zero. -/
def Layout.digits (l : Layout) (n : Nat) (base : Nat) : String :=
  let ds := if n = 0 && l.precision = some 0 then "" else String.ofList (Nat.toDigits base n)
  match l.precision with
  | some p => Decimal.padLeft p '0' ds
  | none => ds

def integer (l : Layout) (i : Int64) : ByteArray :=
  l.number (l.sign (i < 0)) (l.digits i.toInt.natAbs 10) l.precision.isNone

/-- An integer as its 64 bits, in base 8, 10 or 16. -/
def bits (l : Layout) (letter : UInt8) (i : Int64) : ByteArray :=
  let n := i.toUInt64.toNat
  match letter with
  | 111 =>
    let ds := l.digits n 8
    let ds := if l.alternate && !ds.startsWith "0" then "0" ++ ds else ds
    l.number "" ds l.precision.isNone
  | 120 => l.number (if l.alternate && n ≠ 0 then "0x" else "") (l.digits n 16) l.precision.isNone
  | 88 =>
    l.number (if l.alternate && n ≠ 0 then "0X" else "") (l.digits n 16).toUpper l.precision.isNone
  | _ => l.number "" (l.digits n 10) l.precision.isNone

/-! ## Floats -/

def fixedText (x : Double) (places : Nat) (point : Bool) : String :=
  Decimal.withPoint (Decimal.atPlaces x places) places ++ (if places = 0 && point then "." else "")

def scientificText (x : Double) (places : Nat) (point : Bool) : String :=
  let (ds, e) := Numeral.significant x (places + 1)
  String.ofList (ds.take 1) ++ (if places = 0 && !point then "" else ".")
    ++ String.ofList (ds.drop 1) ++ "e" ++ Numeral.exponentText e

def generalText (x : Double) (precision : Nat) (keepZeros : Bool) : String :=
  let count := if precision = 0 then 1 else precision
  let (ds, e) := Numeral.significant x count
  Numeral.generalLayout count keepZeros ds e

/-- The digits of a fraction of 52 bits, without zeros at the end. -/
def hexFraction (fraction : Nat) : List Char :=
  Numeral.stripZeros (Decimal.padLeft 13 '0' (String.ofList (Nat.toDigits 16 fraction))).toList

/-- A magnitude in base 16, from the leading digit on, and its binary exponent. -/
def hexText (x : Double) (precision : Option Nat) (point : Bool) : String :=
  let e : Nat := (x.magnitude >>> 52).toNat
  let fraction : Nat := (x.bits &&& 0xFFFFFFFFFFFFF).toNat
  let exponent : Int := if x.isZero then 0 else if e = 0 then -1022 else (e : Int) - 1023
  let lead := if e = 0 then 0 else 1
  let (lead, digits) : Nat × List Char :=
    match precision with
    | some p =>
      if p < 13 then
        let n := Double.roundHalfEven (lead * twoTo 52 + fraction) (twoTo (52 - 4 * p))
        let low := n % Nat.pow 16 p
        (n / Nat.pow 16 p,
          if p = 0 then [] else (Decimal.padLeft p '0' (String.ofList (Nat.toDigits 16 low))).toList)
      else
        let ds := (Decimal.padLeft 13 '0' (String.ofList (Nat.toDigits 16 fraction))).toList
        (lead, ds ++ List.replicate (p - 13) '0')
    | none => (lead, hexFraction fraction)
  toString lead ++ (if digits.isEmpty && !point then "" else ".") ++ String.ofList digits
    ++ "p" ++ (if exponent < 0 then "-" else "+") ++ toString exponent.natAbs

def isCapital (letter : UInt8) : Bool := Pattern.Ascii.isUpper letter

def float (l : Layout) (letter : UInt8) (x : Double) : ByteArray :=
  let sign := l.sign x.isNegative
  let cased := fun s : String => if isCapital letter then s.toUpper else s
  if !x.isFinite then l.number sign (cased (Numeral.specialText x)) false
  else
    let places := l.precision.getD 6
    match Pattern.Ascii.toLower letter with
    | 101 => l.number sign (cased (scientificText x places l.alternate)) true
    | 102 => l.number sign (fixedText x places l.alternate) true
    | 103 => l.number sign (cased (generalText x places l.alternate)) true
    | _ => l.number (sign ++ cased "0x") (cased (hexText x l.precision l.alternate)) true

/-! ## Strings -/

/-- At most as many bytes as the precision says, padded to the width. -/
def string (l : Layout) (s : ByteArray) : ByteArray :=
  l.pad (match l.precision with
    | some p => s.extract 0 p
    | none => s)

/-! ## Literals -/

/-- A byte of a quoted string; `next` is the byte after it. -/
def quotedByte (c : UInt8) (next : Option UInt8) : List UInt8 :=
  if c == 34 || c == 92 || c == 10 then [92, c]
  else if Pattern.Ascii.isControl c then
    let ds := toString c.toNat
    let ds := if next.any isDigit then Decimal.padLeft 3 '0' ds else ds
    92 :: ds.toUTF8.toList
  else [c]

def quotedFrom : List UInt8 → List UInt8
  | [] => [34]
  | c :: rest => quotedByte c rest.head? ++ quotedFrom rest

/-- A string between quotes, such that it reads back. -/
def quoted (s : ByteArray) : ByteArray := Bytes.ofList (34 :: quotedFrom s.toList)

def plainLayout : Layout := ⟨false, false, false, false, false, 0, none⟩

/-- A value as the script would write it, if it can be written. -/
def literal? (v : Value) : Option ByteArray :=
  match v with
  | .str s => some (quoted s)
  | .int i =>
    if i.toInt = Numeral.minInt then some (Bytes.ofString "0x8000000000000000")
    else some (Bytes.ofString (Numeral.intText i))
  | .float x =>
    if x.isNaN then some (Bytes.ofString "(0/0)")
    else if x.isInfinite then some (Bytes.ofString (if x.isNegative then "-1e9999" else "1e9999"))
    else some (float plainLayout 97 x)
  | .nil => some (Bytes.ofString "nil")
  | .bool b => some (Bytes.ofString (if b then "true" else "false"))
  | _ => none

end StrategyBench.Lua.Format
