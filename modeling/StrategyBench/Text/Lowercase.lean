/-
StrategyBench.Text.Lowercase — lower-casing text.

Each character has its lower-case form; a capital sigma that ends a word becomes the final one.
-/

import StrategyBench.Text.Ranges
import StrategyBench.Text.CaseTable

namespace StrategyBench.Text

def lowerChar (c : Char) : List Char :=
  if c.toNat < 128 then [c.toLower]
  else if c = 'İ' then ['i', '\u0307']
  else
    match lowerRuns.find? fun (a, b, _, _) => a ≤ c.toNat && c.toNat ≤ b with
    | some (a, _, step, offset) =>
      if (c.toNat - a) % step = 0 then [Char.ofNat (c.toNat + offset).toNat] else [c]
    | none => [c]

def isCased (c : Char) : Bool := inRanges casedRanges c
def isCaseIgnorable (c : Char) : Bool := inRanges caseIgnorableRanges c

/-- The nearest character that is not passed over has case. -/
def casedNext (cs : List Char) : Bool :=
  match cs.dropWhile isCaseIgnorable with
  | c :: _ => isCased c
  | [] => false

/-- Lower-cases what follows `before`, which is given last character first. -/
def lowerAfter (before : List Char) : List Char → List Char
  | [] => []
  | c :: rest =>
    let here :=
      if c = 'Σ' then (if casedNext before && !casedNext rest then ['ς'] else ['σ'])
      else lowerChar c
    here ++ lowerAfter (c :: before) rest

def lower (s : String) : String := String.ofList (lowerAfter [] s.toList)

end StrategyBench.Text
