/-
StrategyBench.Text.Quoted — text between quotes, unprintable characters by their code.
-/

import StrategyBench.Text.Ranges
import StrategyBench.Text.PrintTable

namespace StrategyBench.Text

def escaped (c : Char) : String :=
  match c with
  | '\x00' => "\\0"
  | '\t' => "\\t"
  | '\r' => "\\r"
  | '\n' => "\\n"
  | '\\' => "\\\\"
  | '"' => "\\\""
  | c =>
    if inRanges combiningRanges c || inRanges unprintableRanges c then
      "\\u\x7b" ++ String.ofList (Nat.toDigits 16 c.toNat) ++ "\x7d"
    else c.toString

def quoted (s : String) : String :=
  "\"" ++ String.join (s.toList.map escaped) ++ "\""

/-- A bracketed list of quoted texts. -/
def quotedList (xs : List String) : String :=
  "[" ++ ", ".intercalate (xs.map quoted) ++ "]"

end StrategyBench.Text
