/-
StrategyBench.Sandbox.Source — from the text that is handed in to a script that can be run.

A byte order mark and a first line that starts with `#!` are taken off, in a way that keeps the
number of every line. What does not read as a script is refused with its line.
-/

import StrategyBench.Lua.Grammar
import StrategyBench.Lua.ChunkName
import StrategyBench.Sandbox.Rejection
import StrategyBench.Text.Blank

namespace StrategyBench.Sandbox

/-- A script ready to run. -/
structure CompiledScript where
  chunkName : String
  code : String
  deriving DecidableEq, Repr

/-- Why a text is refused; the line, if it is known. -/
structure CompileFault where
  message : String
  line : Option Nat
  deriving DecidableEq, Repr

def CompileFault.text (f : CompileFault) : String :=
  match f.line with
  | some n => "第 " ++ toString n ++ " 行: " ++ f.message
  | none => f.message

/-- What turns a text into a script. -/
abbrev Compiler := String → Except CompileFault CompiledScript

namespace Source

/-! ## Before reading -/

def byteOrderMark : Char := '\uFEFF'

def withoutMark : List Char → List Char
  | c :: rest => if c = byteOrderMark then rest else c :: rest
  | [] => []

/-- Empties a first line that starts with `#!`. -/
def withoutHashLine : List Char → List Char
  | '#' :: '!' :: rest => rest.dropWhile (· ≠ '\n')
  | cs => cs

/-- The text without a leading byte order mark, and with a `#!` line emptied. -/
def preprocess (source : String) : String :=
  String.ofList (withoutHashLine (withoutMark source.toList))

/-! ## Faults -/

def scriptName : String := "strategy"

def chunkName : String := "=" ++ scriptName

def afterPrefix : List Char → List Char → Option (List Char)
  | [], cs => some cs
  | p :: ps, c :: cs => if p = c then afterPrefix ps cs else none
  | _ :: _, [] => none

/-- A line number: digits after at most one `+`, below `2 ^ 64`. -/
def lineNumber? (cs : List Char) : Option Nat :=
  let ds := match cs with
    | '+' :: rest => rest
    | cs => cs
  if ds.isEmpty || !ds.all Char.isDigit then none
  else
    let n := ds.foldl (fun n c => n * 10 + (c.toNat - 48)) 0
    if n < twoTo 64 then some n else none

/-- Takes the position off a message. -/
def splitLocation (message : String) : CompileFault :=
  let located? := do
    let rest ← afterPrefix (scriptName ++ ":").toList message.toList
    match rest.span (· ≠ ':') with
    | (digits, _ :: text) => (lineNumber? digits).map fun n => CompileFault.mk (Text.trim (String.ofList text)) (some n)
    | _ => none
  located?.getD ⟨message, none⟩

/-! ## Compiled chunks -/

/-- The header of a compiled chunk after its first byte, and what is said where it differs. -/
def binaryHeader : List (List UInt8 × String) :=
  [([76, 117, 97], "not a binary chunk"), ([0x54], "version mismatch"), ([0], "format mismatch"),
   ([0x19, 0x93, 13, 10, 0x1A, 10], "corrupted chunk")]

def binaryFault (cs : List UInt8) : List (List UInt8 × String) → String
  | [] => "truncated chunk"
  | (part, what) :: rest =>
    if cs.length < part.length then "truncated chunk"
    else if cs.take part.length = part then binaryFault (cs.drop part.length) rest
    else what

/-- The tree of a text under a name, or the message that refuses it. A text is never a compiled chunk. -/
inductive Refusal
  | malformed (text : ByteArray)
  /-- It nests too deep. -/
  | tooDeep

def tree (name code : ByteArray) : Except Refusal Lua.Function :=
  match code.toList with
  | 27 :: rest =>
    let shownName := match Bytes.get? name 0 with
      | some 61 | some 64 => name.extract 1 name.size
      | some 27 => Bytes.ofString "binary string"
      | _ => name
    .error (.malformed (Bytes.join [shownName,
      Bytes.ofString (": bad binary format (" ++ binaryFault rest binaryHeader ++ ")")]))
  | _ =>
    match Lua.Function.ofSource code with
    | .ok f => .ok f
    | .error (.at line text) => .error (.malformed (Lua.ChunkName.located name line text))
    | .error .tooDeep => .error .tooDeep

def tooDeepText : String := "C stack overflow"

/-- Reads a text as a script under the usual name. -/
def compile : Compiler := fun source =>
  let code := preprocess source
  match tree (Bytes.ofString chunkName) (Bytes.ofString code) with
  | .ok _ => .ok ⟨chunkName, code⟩
  | .error (.malformed text) => .error (splitLocation (Bytes.toText text))
  | .error .tooDeep => .error ⟨"runtime error: " ++ tooDeepText, none⟩

end Source
end StrategyBench.Sandbox
