/-
StrategyBench.Json.Write — JSON text, on one line or indented.
-/

import StrategyBench.Json.Basic
import StrategyBench.Number.Decimal

namespace StrategyBench.Json

/-- Numbers are positional from `1e-5` up to below `1e16`, and always show that they are no integers. -/
def floatForm : Decimal.Form := ⟨-5, 15, true, true, "null", "null"⟩

def hexDigit (n : Nat) : Char :=
  if n < 10 then Char.ofNat (48 + n) else Char.ofNat (87 + n)

/-- Quote, backslash and the controls below the space are escaped, nothing else. -/
def escapeChar (c : Char) : List Char :=
  match c with
  | '"' => ['\\', '"']
  | '\\' => ['\\', '\\']
  | '\n' => ['\\', 'n']
  | '\r' => ['\\', 'r']
  | '\t' => ['\\', 't']
  | '\x08' => ['\\', 'b']
  | '\x0c' => ['\\', 'f']
  | c =>
    if c.toNat < 32 then ['\\', 'u', '0', '0', hexDigit (c.toNat / 16), hexDigit (c.toNat % 16)]
    else [c]

def quoted (s : String) : String :=
  String.ofList (('"' :: s.toList.flatMap escapeChar) ++ ['"'])

def commaSeparated (sep : String) : List String → String
  | [] => ""
  | [x] => x
  | x :: rest => x ++ sep ++ commaSeparated sep rest

mutual
/-- One line, no blanks. -/
def compact : Json → String
  | .null => "null"
  | .bool b => if b then "true" else "false"
  | .int i => toString i
  | .float x => floatForm.write x
  | .str s => quoted s
  | .arr xs => "[" ++ commaSeparated "," (compactElements xs) ++ "]"
  | .obj ms => "\x7b" ++ commaSeparated "," (compactMembers ms) ++ "\x7d"

def compactElements : List Json → List String
  | [] => []
  | x :: xs => compact x :: compactElements xs

def compactMembers : List (String × Json) → List String
  | [] => []
  | (k, v) :: ms => (quoted k ++ ":" ++ compact v) :: compactMembers ms
end

def indent (depth : Nat) : String := String.ofList (List.replicate (2 * depth) ' ')

mutual
/-- Two blanks for each level; empty arrays and objects stay on their line. -/
def pretty (depth : Nat) : Json → String
  | .arr [] => "[]"
  | .obj [] => "\x7b\x7d"
  | .arr xs =>
    "[\n" ++ commaSeparated ",\n" (prettyElements (depth + 1) xs) ++ "\n" ++ indent depth ++ "]"
  | .obj ms =>
    "\x7b\n" ++ commaSeparated ",\n" (prettyMembers (depth + 1) ms) ++ "\n" ++ indent depth ++ "\x7d"
  | .null => "null"
  | .bool b => if b then "true" else "false"
  | .int i => toString i
  | .float x => floatForm.write x
  | .str s => quoted s

def prettyElements (depth : Nat) : List Json → List String
  | [] => []
  | x :: xs => (indent depth ++ pretty depth x) :: prettyElements depth xs

def prettyMembers (depth : Nat) : List (String × Json) → List String
  | [] => []
  | (k, v) :: ms => (indent depth ++ quoted k ++ ": " ++ pretty depth v) :: prettyMembers depth ms
end

end StrategyBench.Json
