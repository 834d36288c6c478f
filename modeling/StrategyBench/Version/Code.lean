/-
StrategyBench.Version.Code — version codes `vYYYYMMDD.n`.

A generated code carries a date and the least number from one on that is free. Reading is lenient in
the ways its parts are: blanks before each number of the date, a signed year, a `+` and leading zeros
in the sequence number.
-/

import StrategyBench.Text.Blank
import StrategyBench.Number.Decimal

namespace StrategyBench

/-! ## Dates -/

structure Date where
  year : Int
  month : Nat
  day : Nat
  deriving DecidableEq, Repr

def isLeap (year : Int) : Bool := year % 4 = 0 && (year % 100 ≠ 0 || year % 400 = 0)

def daysIn (year : Int) (month : Nat) : Nat :=
  match month with
  | 2 => if isLeap year then 29 else 28
  | 4 | 6 | 9 | 11 => 30
  | 1 | 3 | 5 | 7 | 8 | 10 | 12 => 31
  | _ => 0

/-- A day of the calendar, in the years that are kept. -/
def Date.valid (d : Date) : Bool :=
  -262143 ≤ d.year && d.year ≤ 262142 && 1 ≤ d.day && d.day ≤ daysIn d.year d.month

def Date.of? (year : Int) (month day : Nat) : Option Date :=
  let d : Date := ⟨year, month, day⟩
  if d.valid then some d else none

/-- Years have four digits; later ones a `+` and those before zero a `-`. -/
def yearText (year : Int) : String :=
  let digits := Decimal.padLeft 4 '0' (toString year.natAbs)
  if year < 0 then "-" ++ digits else if year > 9999 then "+" ++ digits else digits

def Date.compact (d : Date) : String :=
  yearText d.year ++ Decimal.padLeft 2 '0' (toString d.month) ++ Decimal.padLeft 2 '0' (toString d.day)

namespace VersionCode

/-! ## Generating -/

def write (date : Date) (n : Nat) : String := "v" ++ date.compact ++ "." ++ toString n

def maxSequence : Nat := twoTo 32 - 1

/-- The first free code from `n` on, among the next `fuel` numbers. -/
def firstFree (date : Date) (existing : List String) (n : Nat) : Nat → Option String
  | 0 => none
  | fuel + 1 =>
    if existing.contains (write date n) then firstFree date existing (n + 1) fuel
    else some (write date n)

/-- The code with the least free number; among one more number than there are codes, one is free.

Where no number up to the greatest is free, counting on overflows, which stops the program or starts
again from nought, as it has been built; the code without a number, which stands for that here, is never
answered. -/
def generate (existing : List String) (date : Date) : String :=
  (firstFree date existing 1 (min (existing.length + 1) maxSequence)).getD ("v" ++ date.compact)

/-- Codes generated one after another, each taken before the next. -/
def generateMany (existing : List String) (date : Date) : Nat → List String
  | 0 => []
  | count + 1 =>
    let code := generate existing date
    code :: generateMany (code :: existing) date count

/-! ## Reading -/

def digits (cs : List Char) : List Char × List Char := cs.span Char.isDigit

def numberOf (ds : List Char) : Nat := ds.foldl (fun n c => n * 10 + (c.toNat - 48)) 0

/-- A number of at most `width` digits after blanks. -/
def readNumber (width : Nat) (cs : List Char) : Option (Nat × List Char) :=
  let cs := cs.dropWhile Text.isBlank
  let (ds, _) := digits cs
  let ds := ds.take width
  if ds.isEmpty then none else some (numberOf ds, cs.drop ds.length)

/-- A year: at most four digits, or a sign and any number of digits. -/
def readYear (cs : List Char) : Option (Int × List Char) :=
  let cs := cs.dropWhile Text.isBlank
  match cs with
  | '-' :: rest =>
    let (ds, rest) := digits rest
    if ds.isEmpty then none else some (-(numberOf ds : Int), rest)
  | '+' :: rest =>
    let (ds, rest) := digits rest
    if ds.isEmpty then none else some (numberOf ds, rest)
  | cs => (readNumber 4 cs).map fun (n, rest) => (n, rest)

def readDate (cs : List Char) : Option Date := do
  let (year, rest) ← readYear cs
  let (month, rest) ← readNumber 2 rest
  let (day, rest) ← readNumber 2 rest
  if rest.isEmpty then Date.of? year month day else none

/-- A sequence number: digits after at most one `+`, from one to the greatest 32-bit word. -/
def readSequence (cs : List Char) : Option Nat :=
  let ds := match cs with
    | '+' :: rest => rest
    | cs => cs
  if ds.isEmpty || !ds.all Char.isDigit then none
  else
    let n := numberOf ds
    if 1 ≤ n ∧ n ≤ maxSequence then some n else none

/-- Splits at the first point. -/
def splitPoint (cs : List Char) : Option (List Char × List Char) :=
  match cs.span (· ≠ '.') with
  | (before, _ :: after) => some (before, after)
  | (_, []) => none

def utf8Length (cs : List Char) : Nat := cs.foldl (fun n c => n + c.utf8Size) 0

/-- The date and the number of a generated code; other codes give `none`. -/
def read? (code : String) : Option (Date × Nat) :=
  match code.toList with
  | 'v' :: rest => do
    let (date, seq) ← splitPoint rest
    if utf8Length date ≠ 8 then none
    some (← readDate date, ← readSequence seq)
  | _ => none

end VersionCode
end StrategyBench
