/-
StrategyBench.Lua.Pattern — patterns, and how they match.

A pattern is read into items once. What is wrong with it is an item too (`malformed`), since it is
only noticed when matching gets there. Matching counts the tests of one item against one place of
the subject.
-/

import StrategyBench.Lua.Value

namespace StrategyBench.Lua.Pattern

/-! ## Classes of characters -/

namespace Ascii

def isUpper (c : UInt8) : Bool := 65 ≤ c && c ≤ 90
def isLower (c : UInt8) : Bool := 97 ≤ c && c ≤ 122
def isAlpha (c : UInt8) : Bool := isUpper c || isLower c
def isDigit (c : UInt8) : Bool := 48 ≤ c && c ≤ 57
def isAlphanumeric (c : UInt8) : Bool := isAlpha c || isDigit c
def isControl (c : UInt8) : Bool := c < 32 || c == 127
def isGraphic (c : UInt8) : Bool := 33 ≤ c && c ≤ 126
def isPunctuation (c : UInt8) : Bool := isGraphic c && !isAlphanumeric c
def isSpace (c : UInt8) : Bool := c == 32 || (9 ≤ c && c ≤ 13)
def isHexDigit (c : UInt8) : Bool := isDigit c || (97 ≤ c && c ≤ 102) || (65 ≤ c && c ≤ 70)
def toLower (c : UInt8) : UInt8 := if isUpper c then c + 32 else c
def toUpper (c : UInt8) : UInt8 := if isLower c then c - 32 else c

end Ascii

/-- The class of a letter after `%`, if it names one. -/
def namedClass? (letter : UInt8) : Option (UInt8 → Bool) :=
  match letter with
  | 97 => some Ascii.isAlpha
  | 99 => some Ascii.isControl
  | 100 => some Ascii.isDigit
  | 103 => some Ascii.isGraphic
  | 108 => some Ascii.isLower
  | 112 => some Ascii.isPunctuation
  | 115 => some Ascii.isSpace
  | 117 => some Ascii.isUpper
  | 119 => some Ascii.isAlphanumeric
  | 120 => some Ascii.isHexDigit
  | 122 => some (· == 0)
  | _ => none

/-- What `%` and a character stand for: a class, its complement for a capital, or the character. -/
def inNamed (letter c : UInt8) : Bool :=
  match namedClass? (Ascii.toLower letter) with
  | some test => test c != Ascii.isUpper letter
  | none => letter == c

inductive Member
  | byte (b : UInt8)
  | range (low high : UInt8)
  | named (letter : UInt8)
  deriving DecidableEq, Repr

def Member.has (m : Member) (c : UInt8) : Bool :=
  match m with
  | byte b => b == c
  | range low high => low ≤ c && c ≤ high
  | named letter => inNamed letter c

structure CharSet where
  negated : Bool
  members : List Member
  deriving DecidableEq, Repr

def CharSet.has (s : CharSet) (c : UInt8) : Bool := (s.members.any fun m => m.has c) != s.negated

inductive CharClass
  | any
  | byte (b : UInt8)
  | named (letter : UInt8)
  | set (s : CharSet)
  deriving DecidableEq, Repr

def CharClass.has (k : CharClass) (c : UInt8) : Bool :=
  match k with
  | any => true
  | byte b => b == c
  | named letter => inNamed letter c
  | set s => s.has c

/-! ## Items -/

inductive Suffix
  | once
  | optional
  /-- As many as there are. -/
  | star
  | plus
  /-- As few as will do. -/
  | lazy
  deriving DecidableEq, Repr

inductive Item
  | openCapture
  | positionCapture
  | closeCapture
  | subjectEnd
  | balance (left right : UInt8)
  | frontier (s : CharSet)
  | backReference (digit : UInt8)
  | single (k : CharClass) (suffix : Suffix)
  | malformed (text : String)
  deriving DecidableEq, Repr

/-! ## Reading -/

/-- The members between the brackets of a set. -/
def members : List UInt8 → List Member
  -- a `%` that a range has left alone at the end stands before the closing bracket
  | [37] => [.named 93]
  | 37 :: c :: rest => .named c :: members rest
  | a :: 45 :: b :: rest => .range a b :: members rest
  | a :: rest => .byte a :: members rest
  | [] => []

/-- The bytes up to the closing bracket of a set, last first, and what is after it; the first byte
is a member whatever it is. -/
def setBody (acc : List UInt8) : List UInt8 → Option (List UInt8 × List UInt8)
  | [] => none
  | 37 :: c :: rest => setBody (c :: 37 :: acc) rest
  | c :: rest => if c = 93 ∧ acc ≠ [] then some (acc.reverse, rest) else setBody (c :: acc) rest

/-- A set after its opening bracket. -/
def readSet (cs : List UInt8) : Option (CharSet × List UInt8) :=
  let (negated, cs) := match cs with
    | 94 :: rest => (true, rest)
    | cs => (false, cs)
  (setBody [] cs).map fun (body, rest) => (⟨negated, members body⟩, rest)

def missingBracket : String := "malformed pattern (missing ']')"
def endsWithPercent : String := "malformed pattern (ends with '%')"
def missingArguments : String := "malformed pattern (missing arguments to '%b')"
def missingFrontierSet : String := "missing '[' after '%f' in pattern"

def readClass : List UInt8 → Except String (CharClass × List UInt8)
  | [37] => .error endsWithPercent
  | 37 :: c :: rest => .ok (.named c, rest)
  | 91 :: rest =>
    match readSet rest with
    | some (s, rest) => .ok (.set s, rest)
    | none => .error missingBracket
  | 46 :: rest => .ok (.any, rest)
  | c :: rest => .ok (.byte c, rest)
  | [] => .error endsWithPercent

def readSuffix : List UInt8 → Suffix × List UInt8
  | 63 :: rest => (.optional, rest)
  | 42 :: rest => (.star, rest)
  | 43 :: rest => (.plus, rest)
  | 45 :: rest => (.lazy, rest)
  | rest => (.once, rest)

def readSingle (cs : List UInt8) : Item × List UInt8 :=
  match readClass cs with
  | .error text => (.malformed text, [])
  | .ok (k, rest) =>
    let (suffix, rest) := readSuffix rest
    (.single k suffix, rest)

/-- The first item, and the rest. -/
def readItem (cs : List UInt8) : Item × List UInt8 :=
  match cs with
  | 40 :: 41 :: rest => (.positionCapture, rest)
  | 40 :: rest => (.openCapture, rest)
  | 41 :: rest => (.closeCapture, rest)
  | [36] => (.subjectEnd, [])
  | 37 :: 98 :: rest =>
    match rest with
    | x :: y :: rest => (.balance x y, rest)
    | _ => (.malformed missingArguments, [])
  | 37 :: 102 :: rest =>
    match rest with
    | 91 :: rest =>
      match readSet rest with
      | some (s, rest) => (.frontier s, rest)
      | none => (.malformed missingBracket, [])
    | _ => (.malformed missingFrontierSet, [])
  | 37 :: d :: rest => if Ascii.isDigit d then (.backReference d, rest) else readSingle cs
  | cs => readSingle cs

def itemsFrom : Nat → List UInt8 → List Item
  | 0, _ => []
  | _, [] => []
  | fuel + 1, cs =>
    let (item, rest) := readItem cs
    item :: itemsFrom fuel rest

/-- The items of a pattern without its anchor. -/
def readItems (cs : List UInt8) : List Item := itemsFrom cs.length cs

end Pattern

/-- A pattern; an anchored one matches only where a search starts. -/
structure Pattern where
  anchored : Bool
  items : List Pattern.Item
  deriving DecidableEq, Repr

namespace Pattern

def ofBytes (p : ByteArray) : Pattern :=
  match p.toList with
  | 94 :: rest => ⟨true, readItems rest⟩
  | cs => ⟨false, readItems cs⟩

/-- A pattern that takes a leading `^` for itself. -/
def unanchored (p : ByteArray) : Pattern := ⟨false, readItems p.toList⟩

/-! ## Captures -/

inductive Extent
  | unfinished
  | position
  | length (n : Nat)
  deriving DecidableEq, Repr

instance : Inhabited Extent := ⟨.unfinished⟩

structure Captured where
  start : Nat
  extent : Extent
  deriving DecidableEq, Repr, Inhabited

abbrev Captures := Array Captured

def maxCaptures : Nat := 32

/-- The last capture that is not finished. -/
def openCapture? (caps : Captures) : Option Nat :=
  ((List.range caps.size).reverse).find? fun i => (caps.getD i default).extent = .unfinished

/-! ## Matching -/

inductive Attempt
  | failed (tests : Nat)
  | matched (stop : Nat) (captures : Captures) (tests : Nat)
  | faulty (text : String) (tests : Nat)
  deriving Inhabited

def maxDepth : Nat := 199

def tooComplex : String := "pattern too complex"
def tooManyCaptures : String := "too many captures"

def indexFault (digit : UInt8) : String := "invalid capture index %" ++ toString (digit.toNat - 48)

/-- The byte at a place, zero past the end. -/
def byteOrZero (s : ByteArray) (i : Nat) : UInt8 := if i < s.size then s.get! i else 0

/-- The test of a class against a place. -/
@[inline] def holdsAt (s : ByteArray) (k : CharClass) (i : Nat) : Bool := i < s.size && k.has (s.get! i)

/-- How many places from `i` on pass the test. -/
def runLength (s : ByteArray) (k : CharClass) (i : Nat) : Nat → Nat
  | 0 => 0
  | n + 1 => if holdsAt s k i then runLength s k (i + 1) n + 1 else 0

/-- Where a balanced part that starts before `i` ends, with `level` parts open. -/
def balanceEnd (s : ByteArray) (left right : UInt8) (i level : Nat) : Nat → Option Nat
  | 0 => none
  | n + 1 =>
    if i < s.size then
      let c := s.get! i
      if c == right then
        if level = 1 then some (i + 1) else balanceEnd s left right (i + 1) (level - 1) n
      else if c == left then balanceEnd s left right (i + 1) (level + 1) n
      else balanceEnd s left right (i + 1) level n
    else none

/-- Tries with `i` repetitions, then with fewer. -/
def fewer (go : Nat → Nat → Attempt) (start : Nat) : Nat → Nat → Attempt
  | 0, tests => go start tests
  | i + 1, tests =>
    match go (start + (i + 1)) tests with
    | .failed tests => fewer go start i tests
    | r => r

/-- Tries here, then with one repetition more. -/
def more (go : Nat → Nat → Attempt) (holds : Nat → Bool) : Nat → Nat → Nat → Attempt
  | 0, _, tests => .failed tests
  | n + 1, i, tests =>
    match go i tests with
    | .failed tests => if holds i then more go holds n (i + 1) (tests + 1) else .failed (tests + 1)
    | r => r

/-- Matches items at a place. `depth` is how many more choices may be open at once. -/
def attempt (s : ByteArray) : List Item → Nat → Nat → Captures → Nat → Attempt
  | [], _, i, caps, tests => .matched i caps tests
  | .openCapture :: rest, depth, i, caps, tests =>
    if maxCaptures ≤ caps.size then .faulty tooManyCaptures tests
    else if depth = 0 then .faulty tooComplex tests
    else attempt s rest (depth - 1) i (caps.push ⟨i, .unfinished⟩) tests
  | .positionCapture :: rest, depth, i, caps, tests =>
    if maxCaptures ≤ caps.size then .faulty tooManyCaptures tests
    else if depth = 0 then .faulty tooComplex tests
    else attempt s rest (depth - 1) i (caps.push ⟨i, .position⟩) tests
  | .closeCapture :: rest, depth, i, caps, tests =>
    match openCapture? caps with
    | none => .faulty "invalid pattern capture" tests
    | some l =>
      if depth = 0 then .faulty tooComplex tests
      else
        attempt s rest (depth - 1) i (caps.modify l fun c => { c with extent := .length (i - c.start) }) tests
  | .subjectEnd :: rest, depth, i, caps, tests =>
    if i = s.size then attempt s rest depth i caps tests else .failed tests
  | .balance left right :: rest, depth, i, caps, tests =>
    if i < s.size && s.get! i == left then
      match balanceEnd s left right (i + 1) 1 (s.size - i) with
      | some j => attempt s rest depth j caps tests
      | none => .failed tests
    else .failed tests
  | .frontier set :: rest, depth, i, caps, tests =>
    let before := if i = 0 then 0 else byteOrZero s (i - 1)
    if !set.has before && set.has (byteOrZero s i) then attempt s rest depth i caps tests
    else .failed tests
  | .backReference digit :: rest, depth, i, caps, tests =>
    if digit = 48 then .faulty (indexFault digit) tests
    else
      match caps[digit.toNat - 49]? with
      | none => .faulty (indexFault digit) tests
      | some c =>
        match c.extent with
        | .unfinished => .faulty (indexFault digit) tests
        | .position => .failed tests
        | .length n =>
          if i + n ≤ s.size && Bytes.equal (s.extract c.start (c.start + n)) (s.extract i (i + n)) then
            attempt s rest depth (i + n) caps tests
          else .failed tests
  | .single k .once :: rest, depth, i, caps, tests =>
    if holdsAt s k i then attempt s rest depth (i + 1) caps (tests + 1) else .failed (tests + 1)
  | .single k .optional :: rest, depth, i, caps, tests =>
    if holdsAt s k i then
      if depth = 0 then .faulty tooComplex (tests + 1)
      else
        match attempt s rest (depth - 1) (i + 1) caps (tests + 1) with
        | .failed tests => attempt s rest depth i caps tests
        | r => r
    else attempt s rest depth i caps (tests + 1)
  | .single k .star :: rest, depth, i, caps, tests =>
    if holdsAt s k i then
      let n := runLength s k i (s.size - i)
      if depth = 0 then .faulty tooComplex (tests + 1 + (n + 1))
      else
        fewer (fun j tests => attempt s rest (depth - 1) j caps tests) i n (tests + 1 + (n + 1))
    else attempt s rest depth i caps (tests + 1)
  | .single k .plus :: rest, depth, i, caps, tests =>
    if holdsAt s k i then
      let n := runLength s k (i + 1) (s.size - i)
      if depth = 0 then .faulty tooComplex (tests + 1 + (n + 1))
      else
        fewer (fun j tests => attempt s rest (depth - 1) j caps tests) (i + 1) n (tests + 1 + (n + 1))
    else .failed (tests + 1)
  | .single k .lazy :: rest, depth, i, caps, tests =>
    if holdsAt s k i then
      if depth = 0 then .faulty tooComplex (tests + 1)
      else
        more (fun j tests => attempt s rest (depth - 1) j caps tests) (holdsAt s k) (s.size - i + 1) i (tests + 1)
    else attempt s rest depth i caps (tests + 1)
  | .malformed text :: _, _, _, _, tests => .faulty text tests

/-- Matches a pattern at a place, after so many tests. -/
def attemptAt (p : Pattern) (s : ByteArray) (i tests : Nat) : Attempt :=
  attempt s p.items maxDepth i #[] tests

/-! ## Searching -/

/-- A match: where it starts and ends, and its captures. -/
structure Match where
  start : Nat
  stop : Nat
  captures : Captures
  deriving Inhabited

inductive Search
  | absent (tests : Nat)
  | found (m : Match) (tests : Nat)
  | faulty (text : String) (tests : Nat)
  deriving Inhabited

def searchFrom (p : Pattern) (s : ByteArray) (i tests : Nat) : Nat → Search
  | 0 => .absent tests
  | n + 1 =>
    match p.attemptAt s i tests with
    | .matched stop caps tests => .found ⟨i, stop, caps⟩ tests
    | .faulty text tests => .faulty text tests
    | .failed tests => if p.anchored then .absent tests else searchFrom p s (i + 1) tests n

/-- The match at a place only. -/
def searchAt (p : Pattern) (s : ByteArray) (i : Nat) : Search :=
  match p.attemptAt s i 0 with
  | .matched stop caps tests => .found ⟨i, stop, caps⟩ tests
  | .failed tests => .absent tests
  | .faulty text tests => .faulty text tests

/-- The first match from a place on that is not beyond the end. -/
def search (p : Pattern) (s : ByteArray) (start : Nat) : Search :=
  searchFrom p s start 0 (s.size + 1 - start)

/-! ## What was captured -/

/-- The value of capture `l`, counted from zero; without captures the whole match is the first. -/
def Match.capture (m : Match) (s : ByteArray) (l : Nat) : Except String Value :=
  match m.captures[l]? with
  | none =>
    if l = 0 then .ok (.str (s.extract m.start m.stop))
    else .error ("invalid capture index %" ++ toString (l + 1))
  | some c =>
    match c.extent with
    | .unfinished => .error "unfinished capture"
    | .position => .ok (.ofNat (c.start + 1))
    | .length n => .ok (.str (s.extract c.start (c.start + n)))

/-- The values of all captures; without any, the whole match if it is wanted. -/
def Match.values (m : Match) (s : ByteArray) (whole : Bool) : Except String (List Value) :=
  let count := if m.captures.isEmpty && whole then 1 else m.captures.size
  (List.range count).mapM (m.capture s)

/-! ## Searching without patterns -/

/-- The characters that are not taken as they are: `^$*+?.([%-`. -/
def isSpecial (c : UInt8) : Bool := [94, 36, 42, 43, 63, 46, 40, 91, 37, 45].contains c

def isPlain (p : ByteArray) : Bool := !p.toList.any isSpecial

end Pattern
end StrategyBench.Lua
