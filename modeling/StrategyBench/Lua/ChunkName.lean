/-
StrategyBench.Lua.ChunkName — how messages name the text of a script.

A name that starts with `=` is shown as it is, one that starts with `@` is a file, any other is the
text itself. What is shown has at most 59 bytes.
-/

import StrategyBench.Lua.Bytes

namespace StrategyBench.Lua.ChunkName

def maxShown : Nat := 59

/-- The bytes of a text that are shown: its first line, up to 45 bytes, with dots for the rest. -/
def shownText (name : ByteArray) : ByteArray :=
  let room := 45
  let line? := Bytes.find? name (Bytes.ofString "\n") 0
  let body :=
    if name.size < room && line?.isNone then name
    else name.extract 0 (min (line?.getD name.size) room) ++ Bytes.ofString "..."
  Bytes.join [Bytes.ofString "[string \"", body, Bytes.ofString "\"]"]

def shown (name : ByteArray) : ByteArray :=
  let rest := name.extract 1 name.size
  match Bytes.get? name 0 with
  | some 61 => rest.extract 0 maxShown
  | some 64 =>
    if rest.size ≤ maxShown then rest
    else Bytes.ofString "..." ++ rest.extract (rest.size - 56) rest.size
  | _ => shownText name

/-- A message with its position. -/
def located (name : ByteArray) (line : Nat) (text : ByteArray) : ByteArray :=
  Bytes.join [shown name, Bytes.ofString (":" ++ toString line ++ ": "), text]

end StrategyBench.Lua.ChunkName
