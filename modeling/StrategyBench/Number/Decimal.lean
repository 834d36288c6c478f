/-
StrategyBench.Number.Decimal — decimal texts of binary64 numbers.

Three exact functions on a finite number (its shortest digits, its value at a number of places, its
value at a number of significant digits), and the layouts built from them.
-/

import StrategyBench.Number.Double

namespace StrategyBench.Decimal

open Double (Parts roundHalfEven)

/-- `count` copies of `0`. -/
def zeros (count : Nat) : String := String.ofList (List.replicate count '0')

/-- Digits `d` and the place of the last one: the value is `d · 10 ^ exponent`. -/
structure Digits where
  digits : Nat
  exponent : Int
  deriving DecidableEq, Repr

/-- The magnitude of a finite number as a ratio of integers. -/
def ratio (x : Double) : Nat × Nat :=
  let p := x.parts
  if p.exponent ≥ 0 then (p.mantissa * twoTo p.exponent.toNat, 1)
  else (p.mantissa, twoTo (-p.exponent).toNat)

/-- `num / den` divided by `10 ^ e`. -/
def shiftTen (num den : Nat) (e : Int) : Nat × Nat :=
  if e ≥ 0 then (num, den * tenTo e.toNat) else (num * tenTo (-e).toNat, den)

/-- Whether `10 ^ e ≤ num / den`. -/
def reaches (num den : Nat) (e : Int) : Bool :=
  let (n, d) := shiftTen num den e
  n ≥ d

/-- The place of the leading digit of `num / den > 0`: the greatest `e` with `10 ^ e ≤ num / den`. -/
def leadingPlace (num den : Nat) : Int :=
  let guess : Int := ((num.log2 : Int) - den.log2) * 30103 / 100000
  if reaches num den (guess + 1) then guess + 1
  else if reaches num den guess then guess
  else guess - 1

/-! ## Shortest digits -/

/-- The decimals on the grid of `10 ^ e` next to the number, if one of them reads back as it. -/
def onGrid? (x : Double) (e : Int) : Option Nat :=
  let p := x.parts
  let even := p.mantissa % 2 = 0
  -- quarters of the last place: the bounds of what rounds to the number
  let low := 4 * p.mantissa - (if p.mantissa = twoTo 52 ∧ p.exponent > -1074 then 1 else 2)
  let mid := 4 * p.mantissa
  let high := 4 * p.mantissa + 2
  let up : Nat := if p.exponent ≥ 0 then twoTo p.exponent.toNat else 1
  let down : Nat := 4 * (if p.exponent ≥ 0 then 1 else twoTo (-p.exponent).toNat)
  let (lowN, den) := shiftTen (low * up) down e
  let (midN, _) := shiftTen (mid * up) down e
  let (highN, _) := shiftTen (high * up) down e
  let inside := fun d : Nat =>
    if even then lowN ≤ d * den && d * den ≤ highN else lowN < d * den && d * den < highN
  let d := midN / den
  match inside d, inside (d + 1) with
  | true, true =>
    let r := midN % den
    some (if 2 * r > den ∨ (2 * r = den ∧ d % 2 = 1) then d + 1 else d)
  | true, false => some d
  | false, true => some (d + 1)
  | false, false => none

/-- Tries grids from coarse to fine. -/
def searchGrids (x : Double) (place : Int) : Nat → Digits
  | 0 =>
    let (num, den) := ratio x
    let (n, d) := shiftTen num den (place - 16)
    ⟨roundHalfEven n d, place - 16⟩
  | left + 1 =>
    let e := place - (16 - left : Nat)
    match onGrid? x e with
    | some d => if d = 0 then searchGrids x place left else ⟨d, e⟩
    | none => searchGrids x place left

/-- The fewest digits that read back as a finite number; zero is one digit `0`. -/
def shortest (x : Double) : Digits :=
  if x.isZero then ⟨0, 0⟩
  else
    let (num, den) := ratio x
    let d := searchGrids x (leadingPlace num den) 17
    -- a carry on a coarse grid leaves trailing zeros
    if d.digits % 10 = 0 then ⟨d.digits / 10, d.exponent + 1⟩ else d

/-! ## Rounded digits -/

/-- A magnitude at `places` decimal places, a tie to even. -/
def atPlaces (x : Double) (places : Nat) : Nat :=
  let (num, den) := ratio x
  roundHalfEven (num * tenTo places) den

/-- A magnitude at `count > 0` significant digits: digits, and the place of the leading one. -/
def atDigits (x : Double) (count : Nat) : Nat × Int :=
  if x.isZero then (0, 0)
  else
    let (num, den) := ratio x
    let place := leadingPlace num den
    let (n, d) := shiftTen num den (place - (count - 1 : Nat))
    let digits := roundHalfEven n d
    if digits ≥ tenTo count then (digits / 10, place + 1) else (digits, place)

/-! ## Layouts -/

def padLeft (width : Nat) (fill : Char) (s : String) : String :=
  String.ofList (List.replicate (width - s.length) fill) ++ s

/-- Digits with a point before the last `places` of them. -/
def withPoint (digits places : Nat) : String :=
  if places = 0 then toString digits
  else
    let s := (padLeft (places + 1) '0' (toString digits)).toList
    let cut := s.length - places
    String.ofList (s.take cut) ++ "." ++ String.ofList (s.drop cut)

/-- Digits `d · 10 ^ e` written out in full, without an exponent; `point` forces a `.0`. -/
def positional (d : Digits) (point : Bool) : String :=
  if d.exponent ≥ 0 then
    let s := toString d.digits ++ (if d.digits = 0 then "" else zeros d.exponent.toNat)
    if point then s ++ ".0" else s
  else withPoint d.digits (-d.exponent).toNat

/-- Digits with one before the point, without the exponent. -/
def leadingDigit (digits : Nat) : String :=
  match (toString digits).toList with
  | [] => "0"
  | [c] => c.toString
  | c :: r => c.toString ++ "." ++ String.ofList r

/-- The exponent of the leading digit. -/
def Digits.leading (d : Digits) : Int := d.exponent + ((toString d.digits).length - 1 : Nat)

/-! ## Written forms -/

/-- How the parts of a written number are laid out. -/
structure Form where
  /-- Least exponent of the leading digit that is still written without an exponent. -/
  low : Int
  /-- Greatest such exponent. -/
  high : Int
  /-- Whether a whole number written without an exponent ends in `.0`. -/
  point : Bool
  /-- Whether a positive exponent carries a `+`. -/
  plus : Bool
  infinity : String
  notANumber : String

/-- A number in a form, from its shortest digits. -/
def Form.write (f : Form) (x : Double) : String :=
  if x.isNaN then f.notANumber
  else
    let sign := if x.isNegative then "-" else ""
    if x.isInfinite then sign ++ f.infinity
    else
      let d := shortest x
      if x.isZero ∨ (f.low ≤ d.leading ∧ d.leading ≤ f.high) then sign ++ positional d f.point
      else
        let e := d.leading
        let mark := if e < 0 then "-" else if f.plus then "+" else ""
        sign ++ leadingDigit d.digits ++ "e" ++ mark ++ toString e.natAbs

/-- Without an exponent, whatever the size; a whole number has no point. -/
def plain : Form := ⟨-400, 400, false, false, "inf", "NaN"⟩

/-- Always with an exponent, except for zero and what is not finite. -/
def exponential (x : Double) : String :=
  if x.isZero then (if x.isNegative then "-0e0" else "0e0")
  else Form.write ⟨1000, 1000, false, false, "inf", "NaN"⟩ x

end StrategyBench.Decimal
