/-
StrategyBench.Settings.Toml — configuration values, and reading them from TOML text.

Tables keep their keys in the order of the text. A dotted key or a header reaches into tables and
makes them; a key that is given twice, or a table that is opened twice, is refused.
-/

import StrategyBench.Number.Double

namespace StrategyBench

/-- A configuration value. -/
inductive Setting
  | null
  | bool (b : Bool)
  | int (i : Int)
  | float (x : Double)
  | text (s : String)
  | list (elements : List Setting)
  | table (members : List (String × Setting))
  deriving Inhabited, Repr

namespace Toml

/-- How a table came about, which decides whether it may be opened or extended again. -/
inductive Origin
  | header
  | implicit
  | dotted
  | inline
  deriving DecidableEq, Repr

/-- A tree under construction. -/
inductive Node
  | leaf (value : Setting)
  | table (origin : Origin) (members : List (String × Node))
  | tables (elements : List (List (String × Node)))
  deriving Inhabited

abbrev Members := List (String × Node)

mutual
def Node.setting : Node → Setting
  | .leaf v => v
  | .table _ ms => .table (membersSetting ms)
  | .tables es => .list (elementsSetting es)

def membersSetting : Members → List (String × Setting)
  | [] => []
  | (k, n) :: ms => (k, n.setting) :: membersSetting ms

def elementsSetting : List Members → List Setting
  | [] => []
  | e :: es => .table (membersSetting e) :: elementsSetting es
end

/-- Replaces or appends a member. -/
def put (key : String) (node : Node) : Members → Members
  | [] => [(key, node)]
  | (k, n) :: ms => if k = key then (k, node) :: ms else (k, n) :: put key node ms

/-- Changes the last table of a list of tables. -/
def mapLast (f : Members → Option Members) : List Members → Option (List Members)
  | [] => none
  | [e] => do some [← f e]
  | e :: es => do some (e :: (← mapLast f es))

/-- Works inside the table that a header's path names, through tables already there. -/
def inside (path : List String) (f : Members → Option Members) (ms : Members) : Option Members :=
  match path with
  | [] => f ms
  | k :: rest => do
    match ms.lookup k with
    | none => some (put k (.table .implicit (← inside rest f [])) ms)
    | some (.table origin inner) =>
      if origin = .inline then none else some (put k (.table origin (← inside rest f inner)) ms)
    | some (.tables es) => some (put k (.tables (← mapLast (inside rest f) es)) ms)
    | some (.leaf _) => none

/-- Opens the table that a header names. -/
def openTable (path : List String) (ms : Members) : Option Members :=
  match path.reverse with
  | [] => none
  | k :: parents => inside parents.reverse (fun inner =>
      match inner.lookup k with
      | none => some (put k (.table .header []) inner)
      | some (.table .implicit m) => some (put k (.table .header m) inner)
      | some _ => none) ms

/-- Adds a table to the list of tables that a header names. -/
def addTable (path : List String) (ms : Members) : Option Members :=
  match path.reverse with
  | [] => none
  | k :: parents => inside parents.reverse (fun inner =>
      match inner.lookup k with
      | none => some (put k (.tables [[]]) inner)
      | some (.tables es) => some (put k (.tables (es ++ [[]])) inner)
      | some _ => none) ms

/-- Gives a dotted key its value within one table. -/
def assign (path : List String) (value : Node) (ms : Members) : Option Members :=
  match path with
  | [] => none
  | [k] => if (ms.lookup k).isSome then none else some (put k value ms)
  | k :: rest => do
    match ms.lookup k with
    | none => some (put k (.table .dotted (← assign rest value [])) ms)
    | some (.table .dotted inner) => some (put k (.table .dotted (← assign rest value inner)) ms)
    | some (.table .implicit inner) => some (put k (.table .implicit (← assign rest value inner)) ms)
    | some _ => none

/-! ## Characters -/

def isSpace (c : Char) : Bool := c = ' ' || c = '\t'

def skipSpaces (cs : List Char) : List Char := cs.dropWhile isSpace

/-- A control character that no text may hold; the tab is not one. -/
def isControl (c : Char) : Bool := (c.toNat < 32 && c ≠ '\t') || c.toNat = 127

/-- Drops a comment; one with a control character is refused. -/
def skipComment : List Char → Option (List Char)
  | '#' :: rest =>
    let after := rest.dropWhile fun c => !isControl c
    match after with
    | [] => some []
    | '\n' :: _ => some after
    | '\r' :: '\n' :: _ => some after
    | _ => none
  | cs => some cs

/-- The end of a line: blanks, a comment, and a line break or the end of the text. -/
def endLine (cs : List Char) : Option (List Char) := do
  match ← skipComment (skipSpaces cs) with
  | [] => some []
  | '\n' :: rest => some rest
  | '\r' :: '\n' :: rest => some rest
  | _ => none

/-- Skips blanks, comments and line breaks. -/
def skipLines : Nat → List Char → Option (List Char)
  | 0, cs => some cs
  | fuel + 1, cs =>
    match skipSpaces cs with
    | '\n' :: rest => skipLines fuel rest
    | '\r' :: '\n' :: rest => skipLines fuel rest
    | '#' :: rest => do skipLines fuel (← skipComment ('#' :: rest))
    | rest => some rest

/-! ## Texts -/

def hexValue? (c : Char) : Option Nat :=
  if c.isDigit then some (c.toNat - 48)
  else if 'a' ≤ c ∧ c ≤ 'f' then some (c.toNat - 87)
  else if 'A' ≤ c ∧ c ≤ 'F' then some (c.toNat - 55)
  else none

def hexNumber (cs : List Char) : Option Nat :=
  cs.foldlM (fun n c => do some (n * 16 + (← hexValue? c))) 0

def codePoint (count : Nat) (cs : List Char) : Option (Char × List Char) := do
  if cs.length < count then none
  let n ← hexNumber (cs.take count)
  if n < 0xD800 ∨ (0xE000 ≤ n ∧ n < 0x110000) then some (Char.ofNat n, cs.drop count) else none

def escape : List Char → Option (Char × List Char)
  | 'b' :: r => some ('\x08', r)
  | 't' :: r => some ('\t', r)
  | 'n' :: r => some ('\n', r)
  | 'f' :: r => some ('\x0c', r)
  | 'r' :: r => some ('\r', r)
  | '"' :: r => some ('"', r)
  | '\\' :: r => some ('\\', r)
  | 'u' :: r => codePoint 4 r
  | 'U' :: r => codePoint 8 r
  | _ => none

/-- A basic text on one line, after its opening quote. -/
def basicText : Nat → List Char → List Char → Option (String × List Char)
  | 0, _, _ => none
  | fuel + 1, acc, cs =>
    match cs with
    | '"' :: rest => some (String.ofList acc.reverse, rest)
    | '\\' :: rest => do
      let (c, rest) ← escape rest
      basicText fuel (c :: acc) rest
    | c :: rest => if isControl c then none else basicText fuel (c :: acc) rest
    | [] => none

def literalText (cs : List Char) : Option (String × List Char) :=
  match cs.span fun c => c ≠ '\'' && !isControl c with
  | (s, '\'' :: rest) => some (String.ofList s, rest)
  | _ => none

def isBreak (c : Char) : Bool := c = '\n' || c = '\r'

/-- Where a text over several lines ends: three quotes, of up to five the first ones are content. -/
def closing (quote : Char) (cs : List Char) : Option (Nat × List Char) :=
  let run := (cs.takeWhile (· = quote)).length
  if run ≥ 3 then
    let taken := min run 5
    some (taken - 3, cs.drop taken)
  else none

/-- After a backslash at the end of a line: blanks and line breaks, one break at least. -/
def lineEnding (cs : List Char) : Option (List Char) :=
  match skipSpaces cs with
  | '\n' :: rest => some (rest.dropWhile fun c => isSpace c || isBreak c)
  | '\r' :: '\n' :: rest => some (rest.dropWhile fun c => isSpace c || isBreak c)
  | _ => none

def longText (quote : Char) (escapes : Bool) :
    Nat → List Char → List Char → Option (String × List Char)
  | 0, _, _ => none
  | fuel + 1, acc, cs =>
    match closing quote cs with
    | some (extra, rest) => some (String.ofList (acc.reverse ++ List.replicate extra quote), rest)
    | none =>
      match cs with
      | '\\' :: rest =>
        if escapes then
          match lineEnding rest with
          | some rest => longText quote escapes fuel acc rest
          | none => do
            let (c, rest) ← escape rest
            longText quote escapes fuel (c :: acc) rest
        else longText quote escapes fuel ('\\' :: acc) rest
      | '\r' :: '\n' :: rest => longText quote escapes fuel ('\n' :: acc) rest
      | c :: rest =>
        if isControl c ∧ c ≠ '\n' then none else longText quote escapes fuel (c :: acc) rest
      | [] => none

/-- A line break right after the opening quotes is not content. -/
def dropBreak : List Char → List Char
  | '\n' :: rest => rest
  | '\r' :: '\n' :: rest => rest
  | cs => cs

def readText (cs : List Char) : Option (String × List Char) :=
  match cs with
  | '"' :: '"' :: '"' :: rest => longText '"' true (rest.length + 1) [] (dropBreak rest)
  | '\'' :: '\'' :: '\'' :: rest => longText '\'' false (rest.length + 1) [] (dropBreak rest)
  | '"' :: rest => basicText (rest.length + 1) [] rest
  | '\'' :: rest => literalText rest
  | _ => none

/-! ## Keys -/

def isBare (c : Char) : Bool := c.isAlphanum || c = '_' || c = '-'

def simpleKey (cs : List Char) : Option (String × List Char) :=
  match cs with
  | '"' :: rest => basicText (rest.length + 1) [] rest
  | '\'' :: rest => literalText rest
  | cs =>
    match cs.span isBare with
    | ([], _) => none
    | (k, rest) => some (String.ofList k, rest)

/-- A key with its dots. -/
def readKey : Nat → List Char → Option (List String × List Char)
  | 0, _ => none
  | fuel + 1, cs => do
    let (k, rest) ← simpleKey (skipSpaces cs)
    match skipSpaces rest with
    | '.' :: rest => do
      let (ks, rest) ← readKey fuel rest
      some (k :: ks, rest)
    | rest => some ([k], rest)

/-! ## Numbers and dates -/

/-- Digits of a radix with single underscores between them. -/
def digitRun? (radix : Nat) (cs : List Char) : Option Nat :=
  let valid := fun c => ((hexValue? c).filter (· < radix)).isSome
  let rec go : List Char → Bool → Nat → Option Nat
    | [], afterDigit, n => if afterDigit then some n else none
    | '_' :: rest, afterDigit, n =>
      match rest with
      | c :: _ => if afterDigit ∧ valid c then go rest false n else none
      | [] => none
    | c :: rest, _, n => if valid c then go rest true (n * radix + (hexValue? c).getD 0) else none
  go cs false 0

def inWord (i : Int) : Bool := -(twoTo 63 : Int) ≤ i && i < (twoTo 63 : Int)

def splitSign : List Char → Option Bool × List Char
  | '-' :: r => (some true, r)
  | '+' :: r => (some false, r)
  | r => (none, r)

def noLeadingZero (cs : List Char) : Bool :=
  match cs with
  | '0' :: _ :: _ => false
  | _ => true

def integer? (cs : List Char) : Option Setting := do
  let i : Int ← match cs with
    | '0' :: 'x' :: ds => (digitRun? 16 ds).map Int.ofNat
    | '0' :: 'o' :: ds => (digitRun? 8 ds).map Int.ofNat
    | '0' :: 'b' :: ds => (digitRun? 2 ds).map Int.ofNat
    | cs =>
      let (sign, ds) := splitSign cs
      if noLeadingZero ds then
        (digitRun? 10 ds).map fun n => if sign = some true then -(n : Int) else n
      else none
  if inWord i then some (.int i) else none

def float? (cs : List Char) : Option Setting := do
  let (sign, body) := splitSign cs
  let negative := sign = some true
  match body with
  | ['i', 'n', 'f'] => some (.float (if negative then Double.infinity.neg else Double.infinity))
  | ['n', 'a', 'n'] => some (.float (if negative then Double.invalid else Double.invalid.neg))
  | body =>
    let (mantissa, tail) := body.span fun c => c ≠ 'e' ∧ c ≠ 'E'
    let (whole, fraction) := mantissa.span (· ≠ '.')
    if !noLeadingZero whole ∨ (fraction.isEmpty ∧ tail.isEmpty) then none
    let w ← digitRun? 10 whole
    let (n, places) ← match fraction with
      | [] => some (w, 0)
      | _ :: f => do
        let v ← digitRun? 10 f
        let places := (f.filter (· ≠ '_')).length
        some (w * tenTo places + v, places)
    let exponent : Int ← match tail with
      | [] => some 0
      | _ :: e =>
        let (s, ds) := splitSign e
        (digitRun? 10 ds).map fun n => if s = some true then -(n : Int) else n
    some (.float (Double.ofDecimal negative n (exponent - places)))

def digitsAt (cs : List Char) (from_ count : Nat) : Option Nat :=
  let ds := (cs.drop from_).take count
  if ds.length = count ∧ ds.all Char.isDigit then some (ds.foldl (fun n c => n * 10 + (c.toNat - 48)) 0)
  else none

def charAt (cs : List Char) (i : Nat) : Option Char := cs[i]?

def validDate (cs : List Char) : Bool :=
  match digitsAt cs 0 4, digitsAt cs 5 2, digitsAt cs 8 2 with
  | some y, some m, some d =>
    let leap := y % 4 = 0 && (y % 100 ≠ 0 || y % 400 = 0)
    let last := match m with
      | 2 => if leap then 29 else 28
      | 4 | 6 | 9 | 11 => 30
      | _ => 31
    cs.length = 10 && charAt cs 4 = some '-' && charAt cs 7 = some '-' && 1 ≤ m && m ≤ 12 && 1 ≤ d && d ≤ last
  | _, _, _ => false

/-- A time of day, with a fraction of a second if one follows; the rest is the offset. -/
def splitTime (cs : List Char) : Option (List Char × List Char) := do
  let h ← digitsAt cs 0 2
  let m ← digitsAt cs 3 2
  let s ← digitsAt cs 6 2
  if charAt cs 2 = some ':' ∧ charAt cs 5 = some ':' ∧ h < 24 ∧ m < 60 ∧ s ≤ 60 then
    match cs.drop 8 with
    | '.' :: rest =>
      let (f, rest) := rest.span Char.isDigit
      if f.isEmpty then none else some (cs.take 8 ++ '.' :: f, rest)
    | rest => some (cs.take 8, rest)
  else none

def validOffset (cs : List Char) : Bool :=
  match cs with
  | [] => true
  | ['Z'] | ['z'] => true
  | '+' :: r | '-' :: r =>
    match digitsAt r 0 2, digitsAt r 3 2 with
    | some h, some m => r.length = 5 && charAt r 2 = some ':' && h < 24 && m < 60
    | _, _ => false
  | _ => false

/-- A date, a time or both; its text is kept. -/
def moment? (cs : List Char) : Option Setting :=
  let whole := Setting.text (String.ofList cs)
  if validDate cs then some whole
  else if validDate (cs.take 10) then
    match cs.drop 10 with
    | sep :: rest =>
      if sep = 'T' ∨ sep = 't' ∨ sep = ' ' then
        match splitTime rest with
        | some (time, offset) =>
          if validOffset offset then
            let offset := if offset = ['z'] then ['Z'] else offset
            some (.text (String.ofList (cs.take 10 ++ 'T' :: time ++ offset)))
          else none
        | none => none
      else none
    | [] => none
  else
    match splitTime cs with
    | some (_, []) => some whole
    | _ => none

/-- A value without quotes or brackets. -/
def plain? (cs : List Char) : Option Setting :=
  if cs = "true".toList then some (.bool true)
  else if cs = "false".toList then some (.bool false)
  else ((integer? cs).or (float? cs)).or (moment? cs)

/-- The characters of a plain value; a date may be followed by a blank and a time. -/
def plainRun (cs : List Char) : List Char × List Char :=
  let stop := fun c : Char => isSpace c || isBreak c || c = ',' || c = ']' || c = '\x7d' || c = '#'
  let run := cs.takeWhile fun c => !stop c
  let rest := cs.drop run.length
  match rest with
  | ' ' :: d :: _ =>
    if validDate run ∧ d.isDigit then
      let time := (rest.drop 1).takeWhile fun c => !stop c
      (run ++ ' ' :: time, rest.drop (1 + time.length))
    else (run, rest)
  | _ => (run, rest)

/-! ## Values -/

mutual
def readValue : Nat → List Char → Option (Node × List Char)
  | 0, _ => none
  | fuel + 1, cs =>
    match cs with
    | '"' :: _ | '\'' :: _ => do
      let (s, rest) ← readText cs
      some (.leaf (.text s), rest)
    | '[' :: rest => do
      let (es, rest) ← readElements fuel [] rest
      some (.leaf (.list es), rest)
    | '\x7b' :: rest =>
      match skipSpaces rest with
      | '\x7d' :: rest => some (.table .inline [], rest)
      | rest => do
        let (ms, rest) ← readPairs fuel [] rest
        some (.table .inline ms, rest)
    | cs => do
      let (run, rest) := plainRun cs
      some (.leaf (← plain? run), rest)

def readElements : Nat → List Setting → List Char → Option (List Setting × List Char)
  | 0, _, _ => none
  | fuel + 1, acc, cs => do
    match ← skipLines (cs.length + 1) cs with
    | ']' :: rest => some (acc.reverse, rest)
    | cs => do
      let (v, rest) ← readValue fuel cs
      match ← skipLines (rest.length + 1) rest with
      | ',' :: rest => readElements fuel (v.setting :: acc) rest
      | ']' :: rest => some ((v.setting :: acc).reverse, rest)
      | _ => none

def readPairs : Nat → Members → List Char → Option (Members × List Char)
  | 0, _, _ => none
  | fuel + 1, acc, cs => do
    let (path, rest) ← readKey (cs.length + 1) cs
    match rest with
    | '=' :: rest => do
      let (v, rest) ← readValue fuel (skipSpaces rest)
      let acc ← assign path v acc
      match skipSpaces rest with
      | ',' :: rest => readPairs fuel acc rest
      | '\x7d' :: rest => some (acc, rest)
      | _ => none
    | _ => none
end

/-! ## Documents -/

/-- Reads line after line; `path` names the table that keys go to. -/
def readLines : Nat → List String → Members → List Char → Option Members
  | 0, _, _, _ => none
  | fuel + 1, path, root, cs => do
    match ← skipLines (cs.length + 1) cs with
    | [] => some root
    | '[' :: '[' :: rest => do
      let (header, rest) ← readKey (rest.length + 1) rest
      match rest with
      | ']' :: ']' :: rest => readLines fuel header (← addTable header root) (← endLine rest)
      | _ => none
    | '[' :: rest => do
      let (header, rest) ← readKey (rest.length + 1) rest
      match rest with
      | ']' :: rest => readLines fuel header (← openTable header root) (← endLine rest)
      | _ => none
    | cs => do
      let (key, rest) ← readKey (cs.length + 1) cs
      match rest with
      | '=' :: rest => do
        let (v, rest) ← readValue (rest.length + 1) (skipSpaces rest)
        readLines fuel path (← inside path (assign key v) root) (← endLine rest)
      | _ => none

/-- The table that a text describes. -/
def read? (text : String) : Option Setting :=
  let cs := match text.toList with
    | '\ufeff' :: rest => rest
    | cs => cs
  (readLines (cs.length + 1) [] [] cs).map fun ms => .table (membersSetting ms)

end Toml
end StrategyBench
