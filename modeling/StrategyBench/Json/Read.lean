/-
StrategyBench.Json.Read — reading JSON text.

An integer that fits 64 bits (with a sign or without) is an integer, every other number is a float.
A float is read from the first digits that fit 64 bits, scaled once by a power of ten.
-/

import StrategyBench.Json.Basic

namespace StrategyBench.Json

/-! ## Numbers -/

def maxWord : Nat := twoTo 64 - 1

/-- Digits gathered while they fit a word; the rest are only counted. -/
structure Significand where
  value : Nat := 0
  /-- Digits left out. -/
  dropped : Nat := 0

def Significand.push (s : Significand) (digit : Nat) : Significand :=
  if s.dropped = 0 ∧ s.value * 10 + digit ≤ maxWord then { s with value := s.value * 10 + digit }
  else { s with dropped := s.dropped + 1 }

/-- Scales a word by a power of ten with one rounding for each step; `none` is out of range. -/
def scaled (value : Nat) (exponent : Int) : Option Double :=
  let x := Double.ofNat value
  if value = 0 then some Double.zero
  else if exponent ≥ 0 then
    if exponent > 308 then none
    else
      let y := x.mul (Double.ofDecimal false 1 exponent)
      if y.isInfinite then none else some y
  else if exponent ≥ -308 then some (x.div (Double.ofDecimal false 1 (-exponent)))
  else
    let y := x.div (Double.ofDecimal false 1 308)
    if exponent ≥ -616 then some (y.div (Double.ofDecimal false 1 (-exponent - 308)))
    else some Double.zero

def digitsOf (cs : List Char) : List Char × List Char := cs.span Char.isDigit

def digitValue (c : Char) : Nat := c.toNat - 48

/-- The exponent part of a number, if one follows. -/
def readExponent (cs : List Char) : Option (Option Int × List Char) :=
  match cs with
  | e :: rest =>
    if e = 'e' ∨ e = 'E' then
      let (negative, rest) := match rest with
        | '-' :: r => (true, r)
        | '+' :: r => (false, r)
        | r => (false, r)
      let (digits, rest) := digitsOf rest
      if digits.isEmpty then none
      else
        let n : Int := digits.foldl (fun acc c => min 100000 (acc * 10 + digitValue c)) 0
        some (some (if negative then -n else n), rest)
    else some (none, cs)
  | [] => some (none, cs)

/-- A number without its sign. -/
def readNumber (negative : Bool) (cs : List Char) : Option (Json × List Char) := do
  let (whole, rest) := digitsOf cs
  if whole.isEmpty ∨ (whole.length > 1 ∧ whole.head? = some '0') then none
  let sig := whole.foldl (fun s c => s.push (digitValue c)) ({} : Significand)
  let (fraction?, rest) ← match rest with
    | '.' :: r =>
      let (fraction, r) := digitsOf r
      if fraction.isEmpty then none else some (some fraction, r)
    | r => some (none, r)
  let (exponent?, rest) ← readExponent rest
  let finish := fun (value : Nat) (exponent : Int) => do
    let x ← scaled value (exponent + exponent?.getD 0)
    some (Json.float (if negative then x.neg else x), rest)
  match fraction?, exponent? with
  | none, none =>
    if sig.dropped > 0 then finish sig.value sig.dropped
    else if negative then
      if sig.value = 0 ∨ sig.value > twoTo 63 then finish sig.value 0
      else some (.int (-(sig.value : Int)), rest)
    else some (.int sig.value, rest)
  | fraction?, _ =>
    let fraction := fraction?.getD []
    -- digits after the point still go into the word while they fit
    let all := fraction.foldl (fun (s : Significand) c => s.push (digitValue c)) ⟨sig.value, 0⟩
    finish all.value ((sig.dropped : Int) - (fraction.length - all.dropped : Nat))

/-! ## Strings -/

def hexValue? (c : Char) : Option Nat :=
  if c.isDigit then some (c.toNat - 48)
  else if 'a' ≤ c ∧ c ≤ 'f' then some (c.toNat - 87)
  else if 'A' ≤ c ∧ c ≤ 'F' then some (c.toNat - 55)
  else none

def readHex4 : List Char → Option (Nat × List Char)
  | a :: b :: c :: d :: rest => do
    some (((← hexValue? a) * 16 + (← hexValue? b)) * 256 + (← hexValue? c) * 16 + (← hexValue? d), rest)
  | _ => none

/-- The rest of a string after its opening quote; `acc` holds what was read, last first. -/
def readString : Nat → List Char → List Char → Option (String × List Char)
  | 0, _, _ => none
  | fuel + 1, acc, cs =>
    match cs with
    | '"' :: rest => some (String.ofList acc.reverse, rest)
    | '\\' :: 'u' :: rest => do
      let (n, rest) ← readHex4 rest
      if 0xD800 ≤ n ∧ n < 0xDC00 then
        match rest with
        | '\\' :: 'u' :: rest => do
          let (m, rest) ← readHex4 rest
          if 0xDC00 ≤ m ∧ m < 0xE000 then
            readString fuel (Char.ofNat (0x10000 + (n - 0xD800) * 1024 + (m - 0xDC00)) :: acc) rest
          else none
        | _ => none
      else if 0xDC00 ≤ n ∧ n < 0xE000 then none
      else readString fuel (Char.ofNat n :: acc) rest
    | '\\' :: c :: rest =>
      match c with
      | '"' => readString fuel ('"' :: acc) rest
      | '\\' => readString fuel ('\\' :: acc) rest
      | '/' => readString fuel ('/' :: acc) rest
      | 'b' => readString fuel ('\x08' :: acc) rest
      | 'f' => readString fuel ('\x0c' :: acc) rest
      | 'n' => readString fuel ('\n' :: acc) rest
      | 'r' => readString fuel ('\r' :: acc) rest
      | 't' => readString fuel ('\t' :: acc) rest
      | _ => none
    | c :: rest => if c.toNat < 32 then none else readString fuel (c :: acc) rest
    | [] => none

/-! ## Values -/

def isBlank (c : Char) : Bool := c = ' ' || c = '\n' || c = '\t' || c = '\r'

def skipBlanks (cs : List Char) : List Char := cs.dropWhile isBlank

mutual
/-- A value after blanks. -/
def readValue : Nat → List Char → Option (Json × List Char)
  | 0, _ => none
  | fuel + 1, cs =>
    match skipBlanks cs with
    | 'n' :: 'u' :: 'l' :: 'l' :: rest => some (.null, rest)
    | 't' :: 'r' :: 'u' :: 'e' :: rest => some (.bool true, rest)
    | 'f' :: 'a' :: 'l' :: 's' :: 'e' :: rest => some (.bool false, rest)
    | '"' :: rest => (readString (rest.length + 1) [] rest).map fun (s, r) => (.str s, r)
    | '-' :: rest => readNumber true rest
    | '[' :: rest =>
      match skipBlanks rest with
      | ']' :: rest => some (.arr [], rest)
      | rest => readElements fuel [] rest
    | '\x7b' :: rest =>
      match skipBlanks rest with
      | '\x7d' :: rest => some (.obj [], rest)
      | rest => readMembers fuel [] rest
    | cs => readNumber false cs

/-- The elements of an array up to its end; `acc` holds those read, last first. -/
def readElements : Nat → List Json → List Char → Option (Json × List Char)
  | 0, _, _ => none
  | fuel + 1, acc, cs => do
    let (v, rest) ← readValue fuel cs
    match skipBlanks rest with
    | ',' :: rest => readElements fuel (v :: acc) rest
    | ']' :: rest => some (.arr (v :: acc).reverse, rest)
    | _ => none

def readMembers : Nat → List (String × Json) → List Char → Option (Json × List Char)
  | 0, _, _ => none
  | fuel + 1, acc, cs =>
    match skipBlanks cs with
    | '"' :: rest => do
      let (key, rest) ← readString (rest.length + 1) [] rest
      match skipBlanks rest with
      | ':' :: rest => do
        let (v, rest) ← readValue fuel rest
        match skipBlanks rest with
        | ',' :: rest => readMembers fuel ((key, v) :: acc) rest
        | '\x7d' :: rest => some (ofMembers ((key, v) :: acc).reverse, rest)
        | _ => none
      | _ => none
    | _ => none
end

/-- A whole text that is one JSON value. -/
def read? (text : String) : Option Json :=
  let cs := text.toList
  match readValue (cs.length + 1) cs with
  | some (v, rest) => if (skipBlanks rest).isEmpty then some v else none
  | none => none

end StrategyBench.Json
