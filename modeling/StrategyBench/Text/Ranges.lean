/-
StrategyBench.Text.Ranges — membership of a code point in a sorted table of closed ranges.
-/

namespace StrategyBench.Text

/-- Halves the table until the only range that can hold the code point is found. -/
def inRangesFrom (table : Array (Nat × Nat)) (c : Nat) : Nat → Nat → Nat → Bool
  | 0, _, _ => false
  | fuel + 1, low, high =>
    if low < high then
      let mid := (low + high) / 2
      match table[mid]? with
      | some (a, b) =>
        if c < a then inRangesFrom table c fuel low mid
        else if b < c then inRangesFrom table c fuel (mid + 1) high
        else true
      | none => false
    else false

def inRanges (table : Array (Nat × Nat)) (c : Char) : Bool :=
  inRangesFrom table c.toNat (table.size + 1) 0 table.size

end StrategyBench.Text
