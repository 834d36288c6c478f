/-
StrategyBench.Lua.Token — the tokens of a script.

A text is split into tokens up to its end or to the first fault; the fault is the last token then,
and is met only by who reads so far. Each token knows the line it ends in and the characters that a
message shows for it.
-/

import StrategyBench.Lua.Numeral

namespace StrategyBench.Lua

inductive TokenKind
  /-- A reserved word or an operator, by its spelling. -/
  | sym (spelling : String)
  | name
  | string (value : ByteArray)
  | int (i : Int64)
  | float (x : Double)
  /-- A character that starts no token. -/
  | stray (b : UInt8)
  | eof
  /-- What is wrong, and near what. -/
  | fault (text : String) (near : ByteArray)
  deriving Inhabited

structure Token where
  kind : TokenKind
  line : Nat
  /-- The characters of a name, a string or a number. -/
  raw : ByteArray := ByteArray.empty
  deriving Inhabited

namespace Token

def reserved : List String :=
  ["and", "break", "do", "else", "elseif", "end", "false", "for", "function", "goto", "if", "in",
   "local", "nil", "not", "or", "repeat", "return", "then", "true", "until", "while"]

def isSym (t : Token) (spelling : String) : Bool :=
  match t.kind with
  | .sym s => s == spelling
  | _ => false

def quote (s : ByteArray) : ByteArray :=
  Bytes.join [Bytes.ofString "'", Bytes.untilZero s, Bytes.ofString "'"]

/-- How a message shows a token. -/
def shown (t : Token) : ByteArray :=
  match t.kind with
  | .sym s => quote (Bytes.ofString s)
  | .name | .string _ | .int _ | .float _ => quote t.raw
  | .stray b =>
    if 32 ≤ b && b < 127 then quote (Bytes.ofList [b])
    else Bytes.ofString ("'<\\" ++ toString b.toNat ++ ">'")
  | .eof => Bytes.ofString "<eof>"
  | .fault _ near => near

/-! ## Characters -/

def isLetter (b : UInt8) : Bool := (65 ≤ b && b ≤ 90) || (97 ≤ b && b ≤ 122) || b == 95

def isNamePart (b : UInt8) : Bool := isLetter b || Numeral.isDigit b

def isLineEnd (b : UInt8) : Bool := b == 10 || b == 13

/-- What follows a line end; a carriage return and a line feed together are one. -/
def afterLineEnd (b : UInt8) (rest : List UInt8) : List UInt8 :=
  match rest with
  | c :: more => if isLineEnd c && c != b then more else rest
  | [] => []

/-! ## Parts of tokens -/

/-- How far a part has been read. -/
structure Place where
  rest : List UInt8
  line : Nat

/-- The level of a long bracket after its first bracket: the count of `=` up to the same bracket. -/
def bracketLevel (bracket : UInt8) (cs : List UInt8) : Nat × Option (List UInt8) :=
  let (marks, rest) := cs.span (· == 61)
  match rest with
  | c :: rest => if c == bracket then (marks.length, some rest) else (marks.length, none)
  | [] => (marks.length, none)

/-- The content of a long bracket, last byte first; `none` if it does not end. -/
def longContent (level line : Nat) (acc : List UInt8) : Nat → List UInt8 → Option (List UInt8 × Place)
  | 0, _ => none
  | _, [] => none
  | fuel + 1, b :: rest =>
    if b == 93 then
      match bracketLevel 93 rest with
      | (n, some after) =>
        if n = level then some (acc, ⟨after, line⟩) else longContent level line (b :: acc) fuel rest
      | _ => longContent level line (b :: acc) fuel rest
    else if isLineEnd b then longContent level (line + 1) (10 :: acc) fuel (afterLineEnd b rest)
    else longContent level line (b :: acc) fuel rest

/-- The last line of a text. -/
def lastLine (line : Nat) : Nat → List UInt8 → Nat
  | 0, _ => line
  | _, [] => line
  | fuel + 1, b :: rest =>
    if isLineEnd b then lastLine (line + 1) fuel (afterLineEnd b rest) else lastLine line fuel rest

/-- A long bracket from after its second bracket on; a line end right there is no content. -/
def longBracket (what : String) (level line : Nat) (cs : List UInt8) :
    Except Token (ByteArray × Place) :=
  let start : Place := match cs with
    | b :: rest => if isLineEnd b then ⟨afterLineEnd b rest, line + 1⟩ else ⟨cs, line⟩
    | [] => ⟨cs, line⟩
  match longContent level start.line [] (start.rest.length + 1) start.rest with
  | some (content, place) => .ok (Bytes.ofList content.reverse, place)
  | none =>
    .error ⟨.fault ("unfinished long " ++ what ++ " (starting at line " ++ toString line ++ ")")
      (Bytes.ofString "<eof>"), lastLine start.line (start.rest.length + 1) start.rest, ByteArray.empty⟩

/-- The UTF-8 bytes of a number below `2 ^ 31`, also of one that is no character. -/
def encodeUtf8 (n : Nat) : List UInt8 :=
  let continuation := fun (shift : Nat) => UInt8.ofNat (0x80 + n / twoTo shift % 64)
  if n < 0x80 then [UInt8.ofNat n]
  else if n < 0x800 then [UInt8.ofNat (0xC0 + n / 64), continuation 0]
  else if n < 0x10000 then [UInt8.ofNat (0xE0 + n / twoTo 12), continuation 6, continuation 0]
  else if n < 0x200000 then
    [UInt8.ofNat (0xF0 + n / twoTo 18), continuation 12, continuation 6, continuation 0]
  else if n < 0x4000000 then
    [UInt8.ofNat (0xF8 + n / twoTo 24), continuation 18, continuation 12, continuation 6, continuation 0]
  else
    [UInt8.ofNat (0xFC + n / twoTo 30), continuation 24, continuation 18, continuation 12,
     continuation 6, continuation 0]

/-- The value of an escape sequence after its backslash, or what is wrong and the bytes read. -/
inductive Escape
  | value (bytes : List UInt8) (rest : List UInt8)
  | lineEnd (rest : List UInt8)
  /-- White space is skipped. -/
  | skip (rest : List UInt8) (lines : Nat)
  | fault (text : String) (read : List UInt8)

/-- A fault shows what has been read and the character where it is seen. -/
def escapeFault (text : String) (read rest : List UInt8) : Escape := .fault text (read ++ rest.take 1)

def skipBlanks (lines : Nat) : Nat → List UInt8 → List UInt8 × Nat
  | 0, cs => (cs, lines)
  | fuel + 1, b :: rest =>
    if isLineEnd b then skipBlanks (lines + 1) fuel (afterLineEnd b rest)
    else if Numeral.isBlank b then skipBlanks lines fuel rest
    else (b :: rest, lines)
  | _, [] => ([], lines)

def hexEscape (cs : List UInt8) : Escape :=
  match cs with
  | a :: rest =>
    match Numeral.hexValue? a with
    | none => escapeFault "hexadecimal digit expected" [120] cs
    | some x =>
      match rest with
      | b :: rest' =>
        match Numeral.hexValue? b with
        | some y => .value [UInt8.ofNat (16 * x + y)] rest'
        | none => escapeFault "hexadecimal digit expected" [120, a] rest
      | [] => escapeFault "hexadecimal digit expected" [120, a] rest
  | [] => escapeFault "hexadecimal digit expected" [120] []

/-- Digits of a `\u` escape after the first. -/
def utf8Digits (value : Nat) (read : List UInt8) : List UInt8 → Escape
  | b :: rest =>
    match Numeral.hexValue? b with
    | some d =>
      if value ≤ 0x7FFFFFFF / 16 then utf8Digits (16 * value + d) (read ++ [b]) rest
      else escapeFault "UTF-8 value too large" read (b :: rest)
    | none =>
      if b == 125 then .value (encodeUtf8 value) rest
      else escapeFault "missing '\x7d'" read (b :: rest)
  | [] => escapeFault "missing '\x7d'" read []

def utf8Escape (cs : List UInt8) : Escape :=
  match cs with
  | 123 :: rest =>
    match rest with
    | b :: rest' =>
      match Numeral.hexValue? b with
      | some d => utf8Digits d [117, 123, b] rest'
      | none => escapeFault "hexadecimal digit expected" [117, 123] rest
    | [] => escapeFault "hexadecimal digit expected" [117, 123] []
  | cs => escapeFault "missing '\x7b'" [117] cs

def decimalEscape (cs : List UInt8) : Escape :=
  let ds := (cs.take 3).takeWhile Numeral.isDigit
  let rest := cs.drop ds.length
  let n := Numeral.decimalValue ds
  if n > 255 then escapeFault "decimal escape too large" ds rest else .value [UInt8.ofNat n] rest

def escape (cs : List UInt8) : Escape :=
  match cs with
  | [] => .value [] []
  | b :: rest =>
    match Char.ofNat b.toNat with
    | 'a' => .value [7] rest
    | 'b' => .value [8] rest
    | 'f' => .value [12] rest
    | 'n' => .value [10] rest
    | 'r' => .value [13] rest
    | 't' => .value [9] rest
    | 'v' => .value [11] rest
    | 'x' => hexEscape rest
    | 'u' => utf8Escape rest
    | '\n' | '\r' => .lineEnd (afterLineEnd b rest)
    | '\\' | '"' | '\'' => .value [b] rest
    | 'z' =>
      let (rest, lines) := skipBlanks 0 (rest.length + 1) rest
      .skip rest lines
    | _ => if Numeral.isDigit b then decimalEscape cs else escapeFault "invalid escape sequence" [] cs

/-- A quoted string from after its quote on; `acc` is the content so far, last byte first. -/
def quoted (mark : UInt8) (line : Nat) (acc : List UInt8) : Nat → List UInt8 → Except Token (ByteArray × Place)
  | 0, _ => .ok (ByteArray.empty, ⟨[], line⟩)
  | _, [] => .error ⟨.fault "unfinished string" (Bytes.ofString "<eof>"), line, ByteArray.empty⟩
  | fuel + 1, b :: rest =>
    let near := fun more : List UInt8 => quote (Bytes.ofList (mark :: acc.reverse ++ more))
    if b == mark then .ok (Bytes.ofList acc.reverse, ⟨rest, line⟩)
    else if isLineEnd b then .error ⟨.fault "unfinished string" (near []), line, ByteArray.empty⟩
    else if b == 92 then
      match escape rest with
      | .value bytes rest => quoted mark line (bytes.reverse ++ acc) fuel rest
      | .lineEnd rest => quoted mark (line + 1) (10 :: acc) fuel rest
      | .skip rest lines => quoted mark (line + lines) acc fuel rest
      | .fault text read => .error ⟨.fault text (near (92 :: read)), line, ByteArray.empty⟩
    else quoted mark line (b :: acc) fuel rest

/-- The characters of a numeral: hexadecimal digits and points, and exponents with their signs. -/
def numeralPart (marks : List UInt8) : Nat → List UInt8 → List UInt8 × List UInt8
  | 0, cs => ([], cs)
  | fuel + 1, b :: rest =>
    if marks.contains b then
      match rest with
      | s :: more =>
        if s == 43 || s == 45 then
          let (part, after) := numeralPart marks fuel more
          (b :: s :: part, after)
        else
          let (part, after) := numeralPart marks fuel rest
          (b :: part, after)
      | [] => ([b], [])
    else if Numeral.isHex b || b == 46 then
      let (part, after) := numeralPart marks fuel rest
      (b :: part, after)
    else ([], b :: rest)
  | _, [] => ([], [])

/-- A number that starts with a digit, or with a point and a digit. -/
def number (line : Nat) (cs : List UInt8) : Token × List UInt8 :=
  let (lead, marks, rest) : List UInt8 × List UInt8 × List UInt8 := match cs with
    | 48 :: 120 :: rest => ([48, 120], [80, 112], rest)
    | 48 :: 88 :: rest => ([48, 88], [80, 112], rest)
    | cs => ([], [69, 101], cs)
  let (part, rest) := numeralPart marks rest.length rest
  let (touching, rest) := match rest with
    | b :: more => if isLetter b then ([b], more) else ([], rest)
    | [] => ([], [])
  let raw := lead ++ part ++ touching
  let token : TokenKind := match Numeral.ofList? raw with
    | some (.int i) => .int i
    | some (.float x) => .float x
    | none => .fault "malformed number" (quote (Bytes.ofList raw))
  (⟨token, line, Bytes.ofList raw⟩, rest)

/-- The operator at the start, the longest one first. -/
def operator? (cs : List UInt8) : Option String :=
  let starts := fun s : String => s.toUTF8.toList.isPrefixOf cs
  (["...", "..", "==", "<=", ">=", "~=", "<<", ">>", "//", "::"].find? starts).or
    (["+", "-", "*", "/", "%", "^", "#", "&", "~", "|", "<", ">", "=", "(", ")", "\x7b", "\x7d", "[", "]",
      ";", ":", ",", "."].find? starts)

/-! ## Scanning -/

/-- What one look at the text gives. -/
inductive Scan
  | token (t : Token) (rest : List UInt8)
  | blank (place : Place)
  | fault (t : Token)

/-- A comment after its two dashes. -/
def comment (line : Nat) (cs : List UInt8) : Scan :=
  let short := Scan.blank ⟨cs.dropWhile (!isLineEnd ·), line⟩
  match cs with
  | 91 :: rest =>
    match bracketLevel 91 rest with
    | (level, some content) =>
      match longBracket "comment" level line content with
      | .ok (_, place) => .blank place
      | .error t => .fault t
    | _ => short
  | _ => short

def longString (line : Nat) (rest : List UInt8) : Scan :=
  match bracketLevel 91 rest with
  | (level, some content) =>
    match longBracket "string" level line content with
    | .ok (s, place) =>
      let marks := List.replicate level 61
      let raw := Bytes.join [Bytes.ofList (91 :: marks ++ [91]), s, Bytes.ofList (93 :: marks ++ [93])]
      .token ⟨.string s, place.line, raw⟩ place.rest
    | .error t => .fault t
  | (0, none) => .token ⟨.sym "[", line, ByteArray.empty⟩ rest
  | (level, none) =>
    .fault ⟨.fault "invalid long string delimiter" (quote (Bytes.ofList (91 :: List.replicate level 61))),
      line, ByteArray.empty⟩

/-- The next token or blank of a text. -/
def scan (line : Nat) (b : UInt8) (rest : List UInt8) : Scan :=
  if isLineEnd b then .blank ⟨afterLineEnd b rest, line + 1⟩
  else if Numeral.isBlank b then .blank ⟨rest, line⟩
  else if isLetter b then
    let (more, rest) := rest.span isNamePart
    let raw := Bytes.ofList (b :: more)
    let spelling := String.ofList ((b :: more).map fun c => Char.ofNat c.toNat)
    .token ⟨if reserved.contains spelling then .sym spelling else .name, line, raw⟩ rest
  else if Numeral.isDigit b || (b == 46 && rest.head?.any Numeral.isDigit) then
    let (t, rest) := number line (b :: rest)
    match t.kind with
    | .fault _ _ => .fault t
    | _ => .token t rest
  else if b == 34 || b == 39 then
    match quoted b line [] (rest.length + 1) rest with
    | .ok (s, place) =>
      .token ⟨.string s, place.line, Bytes.join [Bytes.ofList [b], s, Bytes.ofList [b]]⟩ place.rest
    | .error t => .fault t
  else if b == 91 then longString line rest
  else
    match rest with
    | 45 :: after => if b == 45 then comment line after else other
    | _ => other
where
  other : Scan :=
    match operator? (b :: rest) with
    | some s => .token ⟨.sym s, line, ByteArray.empty⟩ ((b :: rest).drop s.utf8ByteSize)
    | none => .token ⟨.stray b, line, ByteArray.empty⟩ rest

def scanAll (line : Nat) : Nat → List UInt8 → List Token
  | 0, _ => [⟨.eof, line, ByteArray.empty⟩]
  | _, [] => [⟨.eof, line, ByteArray.empty⟩]
  | fuel + 1, b :: rest =>
    match scan line b rest with
    | .token t rest => t :: scanAll t.line fuel rest
    | .blank place => scanAll place.line fuel place.rest
    | .fault t => [t]

/-- The tokens of a text, up to its end or the first fault. -/
def ofSource (source : ByteArray) : List Token := scanAll 1 (source.size + 1) source.toList

end Token
end StrategyBench.Lua
